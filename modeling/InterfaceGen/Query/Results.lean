import InterfaceGen.Query.Failure

/-!
# Results of a query

A query gives any number of results in order, and a failure ends them. They are worked out one
at a time, as far as they are asked for, so that the first results of a query can be had without
the rest of its work. `Results.all` is what they come to when all are asked for.
-/

namespace InterfaceGen.Query

inductive Results (α : Type)
  | empty
  | fail (e : Failure)
  /-- One result, which is known to be the last. -/
  | last (a : α)
  | more (a : α) (rest : Unit → Results α)
  /-- Results on which no work has been done yet. -/
  | later (results : Unit → Results α)

abbrev Stream := Results Value

namespace Results

variable {α β γ : Type}

def ofExcept : Except Failure α → Results α
  | .ok a => last a
  | .error e => fail e

def ofList : List α → Results α
  | [] => empty
  | [a] => last a
  | a :: rest => more a fun _ => ofList rest

/-! ### What is asked for -/

def all : Results α → Except Failure (List α)
  | empty => .ok []
  | fail e => .error e
  | last a => .ok [a]
  | more a rest => (all (rest ())).map (a :: ·)
  | later results => all (results ())

def first? : Results α → Except Failure (Option α)
  | empty => .ok none
  | fail e => .error e
  | last a => .ok (some a)
  | more a _ => .ok (some a)
  | later results => first? (results ())

def isEmpty : Results α → Bool
  | empty => true
  | later results => isEmpty (results ())
  | _ => false

/-! ### Operations -/

def first : Results α → Results α
  | more a _ => last a
  | later results => later fun _ => first (results ())
  | results => results

def append (xs : Results α) (ys : Unit → Results α) : Results α :=
  match xs with
  | empty => ys ()
  | fail e => fail e
  | last a => more a ys
  | more a rest => more a fun _ => append (rest ()) ys
  | later results => later fun _ => append (results ()) ys

/-- Goes on with every result. -/
protected def bind (xs : Results α) (next : α → Results β) : Results β :=
  match xs with
  | empty => empty
  | fail e => fail e
  | last a => next a
  | more a rest => (next a).append fun _ => (rest ()).bind next
  | later results => later fun _ => (results ()).bind next

def map (f : α → β) (xs : Results α) : Results β := xs.bind fun a => last (f a)

def filter (p : α → Bool) : Results α → Results α
  | empty => empty
  | fail e => fail e
  | last a => if p a then last a else empty
  | more a rest => if p a then more a fun _ => filter p (rest ()) else filter p (rest ())
  | later results => later fun _ => filter p (results ())

def handle (handler : Failure → Results α) : Results α → Results α
  | fail e => handler e
  | more a rest => more a fun _ => handle handler (rest ())
  | later results => later fun _ => handle handler (results ())
  | results => results

/-- Other results where there are none. A failure is not replaced. -/
def orElse (ys : Unit → Results α) : Results α → Results α
  | empty => ys ()
  | later results => later fun _ => orElse ys (results ())
  | results => results

/-- A failure in the place of the first result; where there is none, nothing fails. -/
def failAtFirst (e : Failure) : Results α → Results β
  | empty => empty
  | later results => later fun _ => failAtFirst e (results ())
  | _ => fail e

/-- Every result of the left side with every result of the right side. A failure counts as a
result in this, and of two failures the left one remains: without results on the right there are
no pairs, whatever the left side is. -/
def product (left : Results α) (right : Unit → Results β) (f : α → β → Results γ) : Results γ :=
  match left with
  | empty => empty
  | fail e => (right ()).failAtFirst e
  | last a => (right ()).bind (f a)
  | more a rest => ((right ()).bind (f a)).append fun _ => product (rest ()) right f
  | later results => later fun _ => product (results ()) right f

/-- All results in one list, after those seen before, of which the latest is the first. -/
def gatherAfter (seen : List α) : Results α → Results (List α)
  | empty => last seen.reverse
  | fail e => fail e
  | last a => last (a :: seen).reverse
  | more a rest => gatherAfter (a :: seen) (rest ())
  | later results => later fun _ => gatherAfter seen (results ())

def gather (xs : Results α) : Results (List α) := xs.gatherAfter []

/-- Takes a state through all results; a step may lead to any number of states, and each of them
is taken through the results that are left. -/
def fold (step : α → β → Results β) : Results α → β → Results β
  | empty, state => last state
  | fail e, _ => fail e
  | last a, state => step a state
  | more a rest, state => (step a state).bind fun next => fold step (rest ()) next
  | later results, state => later fun _ => fold step (results ()) state

/-! ### Laws -/

@[simp] theorem bind_last (a : α) (next : α → Results β) : (last a).bind next = next a := rfl

end Results

end InterfaceGen.Query
