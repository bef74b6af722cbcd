/-!
# Plans

A plan is what a program intends to do, apart from how it is done: a sequence of intents, each of
which may depend on the answers to the earlier ones and on nothing else.  An intent fixes the type
of its answer; one without answers ends the plan.

* `Plan Answer α`: plans that end with a value, by the answers that intents get.
* `Plan.andThen`: one plan after another, and the monad laws.
-/

namespace BoardConsole

/-- Intents that end with a value. -/
inductive Plan {ι : Type} (Answer : ι → Type) (α : Type) : Type
  /-- Nothing more to do. -/
  | done (value : α)
  /-- An intent, and what comes after its answer. -/
  | step (intent : ι) (next : Answer intent → Plan Answer α)

namespace Plan

variable {ι : Type} {Answer : ι → Type} {α β γ : Type}

/-- One plan after another. -/
def andThen : Plan Answer α → (α → Plan Answer β) → Plan Answer β
  | done a, f => f a
  | step i next, f => step i fun answer => (next answer).andThen f

/-- One intent, and its answer. -/
def ask (i : ι) : Plan Answer (Answer i) := step i done

instance : Monad (Plan Answer) where
  pure := done
  bind := andThen

@[simp] theorem pure_eq (a : α) : (pure a : Plan Answer α) = done a := rfl

@[simp] theorem done_bind (a : α) (f : α → Plan Answer β) : done a >>= f = f a := rfl

@[simp] theorem step_bind (i : ι) (next : Answer i → Plan Answer α) (f : α → Plan Answer β) :
    step i next >>= f = step i fun answer => next answer >>= f := rfl

theorem bind_done (p : Plan Answer α) : p >>= done = p := by
  induction p with
  | done a => rfl
  | step i next ih => simp [ih]

theorem bind_bind (p : Plan Answer α) (f : α → Plan Answer β) (g : β → Plan Answer γ) :
    p >>= f >>= g = p >>= fun a => f a >>= g := by
  induction p with
  | done a => rfl
  | step i next ih => simp [ih]

end Plan

end BoardConsole
