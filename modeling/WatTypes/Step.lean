/-!
# Steps that keep their state

A step starts in a state and stops in a state, with an answer or with an error; an error keeps the
state in which it arose, so that work can go on from there. Steps are put together by `do` blocks
and by repetition as long as more comes, which collects the answers (`Step.whileMore`) or carries a
value on (`Step.foldWhile`).
-/

set_option autoImplicit false
set_option relaxedAutoImplicit false

namespace WatTypes

/-- A step from states to answers: an answer or an error, and the state where the step stopped. -/
def Step (ε σ α : Type) : Type := σ → Except ε α × σ

namespace Step

variable {ε δ σ α β : Type}

/-- Takes a step and goes on with its answer. -/
def bind (step : Step ε σ α) (next : α → Step ε σ β) : Step ε σ β := fun here ↦
  match step here with
  | (.ok answer, there) => next answer there
  | (.error error, there) => (.error error, there)

instance : Monad (Step ε σ) where
  pure answer := fun here ↦ (.ok answer, here)
  bind := Step.bind

/-- The step that answers with the state. -/
def state : Step ε σ σ := fun here ↦ (.ok here, here)

/-- The step that changes the state. -/
def update (change : σ → σ) : Step ε σ Unit := fun here ↦ (.ok (), change here)

/-- The step that fails where it stands. -/
def fail (error : ε) : Step ε σ α := fun here ↦ (.error error, here)

/-- The step that answers with an outcome that is already known. -/
def ofExcept (outcome : Except ε α) : Step ε σ α := fun here ↦ (outcome, here)

/-- The same step with its error put in other terms. -/
def mapError (change : ε → δ) (step : Step ε σ α) : Step δ σ α := fun here ↦
  match step here with
  | (outcome, there) => (outcome.mapError change, there)

@[simp] theorem pure_apply (answer : α) (here : σ) :
    (pure answer : Step ε σ α) here = (.ok answer, here) := rfl

@[simp] theorem bind_apply (step : Step ε σ α) (next : α → Step ε σ β) (here : σ) :
    (step >>= next) here =
      match step here with
      | (.ok answer, there) => next answer there
      | (.error error, there) => (.error error, there) := rfl

@[simp] theorem state_apply (here : σ) : (state : Step ε σ σ) here = (.ok here, here) := rfl

@[simp] theorem update_apply (change : σ → σ) (here : σ) :
    (update change : Step ε σ Unit) here = (.ok (), change here) := rfl

@[simp] theorem fail_apply (error : ε) (here : σ) :
    (fail error : Step ε σ α) here = (.error error, here) := rfl

@[simp] theorem ofExcept_apply (outcome : Except ε α) (here : σ) :
    (ofExcept outcome : Step ε σ α) here = (outcome, here) := rfl

@[simp] theorem mapError_apply (change : ε → δ) (step : Step ε σ α) (here : σ) :
    mapError change step here = ((step here).1.mapError change, (step here).2) := rfl

/-- Takes a step again and again, as long as `more` says that more comes, and collects the answers.
A step that leaves no less remaining is the last one. -/
def whileMore (remaining : σ → Nat) (more : σ → Bool) (step : Step ε σ α) :
    Step ε σ (List α) := fun here ↦
  if more here then
    match step here with
    | (.error error, there) => (.error error, there)
    | (.ok answer, there) =>
      if remaining there < remaining here then
        match whileMore remaining more step there with
        | (.ok answers, stop) => (.ok (answer :: answers), stop)
        | (.error error, stop) => (.error error, stop)
      else (.ok [answer], there)
  else (.ok [], here)
termination_by here => remaining here

/-- Takes a step again and again, as long as `more` says that more comes, and gives each time the
value that the time before answered with. A step that leaves no less remaining is the last one. -/
def foldWhile (remaining : σ → Nat) (more : σ → Bool) (step : β → Step ε σ β) (value : β) :
    Step ε σ β := fun here ↦
  if more here then
    match step value here with
    | (.error error, there) => (.error error, there)
    | (.ok next, there) =>
      if remaining there < remaining here then foldWhile remaining more step next there
      else (.ok next, there)
  else (.ok value, here)
termination_by here => remaining here

/-- Where nothing more comes, repetition takes no step. -/
theorem whileMore_of_not_more {remaining : σ → Nat} {more : σ → Bool} {step : Step ε σ α}
    {here : σ} (hmore : more here = false) :
    whileMore remaining more step here = (.ok [], here) := by
  rw [whileMore, if_neg (by simp [hmore])]

/-- Assumes: more comes, and a step that leaves less remaining. Repetition goes on behind it. -/
theorem whileMore_of_more {remaining : σ → Nat} {more : σ → Bool} {step : Step ε σ α}
    {here there stop : σ} {answer : α} {answers : List α} (hmore : more here = true)
    (hstep : step here = (.ok answer, there)) (hless : remaining there < remaining here)
    (hothers : whileMore remaining more step there = (.ok answers, stop)) :
    whileMore remaining more step here = (.ok (answer :: answers), stop) := by
  rw [whileMore, if_pos hmore]
  simp only [hstep, hless, if_true, hothers]

/-- Repetition of a step that leaves less remaining is the step, and the repetition behind it. -/
theorem whileMore_eq_bind {remaining : σ → Nat} {more : σ → Bool} {step : Step ε σ α} {here : σ}
    (hless : ∀ answer there, step here = (.ok answer, there) → remaining there < remaining here) :
    whileMore remaining more step here =
      if more here then
        (step >>= fun answer ↦
          whileMore remaining more step >>= fun answers ↦ pure (answer :: answers)) here
      else (.ok [], here) := by
  rw [whileMore]
  split
  · rw [bind_apply]
    rcases hstep : step here with ⟨outcome, there⟩
    cases outcome with
    | error error => rfl
    | ok answer =>
      simp only [hless answer there hstep, if_true, bind_apply, pure_apply]
      rcases whileMore remaining more step there with ⟨answers, stop⟩
      cases answers <;> rfl
  · rfl

end Step

end WatTypes
