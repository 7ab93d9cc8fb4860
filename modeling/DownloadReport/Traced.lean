/-! Computations that note down events on their way and may fail. What was noted before a failure is
    kept. -/

namespace DownloadReport

/-- The events that a computation noted, in order, and how it ended. -/
@[ext] structure Traced (η ε α : Type) where
  events : List η
  outcome : Except ε α

namespace Traced

variable {η ε α β : Type}

/-- Goes on with the result of a computation; nothing follows a failure. -/
def andThen (x : Traced η ε α) (f : α → Traced η ε β) : Traced η ε β :=
  match x.outcome with
  | .error e => ⟨x.events, .error e⟩
  | .ok a => ⟨x.events ++ (f a).events, (f a).outcome⟩

instance : Monad (Traced η ε) where
  pure a := ⟨[], .ok a⟩
  bind := andThen

/-- A computation that notes nothing. -/
def lift (x : Except ε α) : Traced η ε α := ⟨[], x⟩

/-- Notes events down. -/
def note (events : List η) : Traced η ε Unit := ⟨events, .ok ()⟩

/-- Fails. -/
def fail (e : ε) : Traced η ε α := ⟨[], .error e⟩

/-- Does the same for each item of a list, from left to right and up to the first failure. -/
def forEach (f : α → Traced η ε β) : List α → Traced η ε (List β)
  | [] => pure []
  | a :: as => do
    let b ← f a
    let bs ← forEach f as
    return b :: bs

/-- Does something with what is there, if anything is. -/
def forSome (f : α → Traced η ε β) : Option α → Traced η ε (Option β)
  | none => pure none
  | some a => do
    let b ← f a
    return some b

/-- Renames the errors of a computation. -/
def mapError {δ : Type} (f : ε → δ) (x : Traced η ε α) : Traced η δ α :=
  ⟨x.events, x.outcome.mapError f⟩

@[simp] theorem outcome_lift (x : Except ε α) : (lift x : Traced η ε α).outcome = x := rfl

@[simp] theorem outcome_note (events : List η) : (note events : Traced η ε Unit).outcome = .ok () :=
  rfl

@[simp] theorem events_pure (a : α) : (pure a : Traced η ε α).events = [] := rfl

@[simp] theorem outcome_pure (a : α) : (pure a : Traced η ε α).outcome = .ok a := rfl

/-- Nothing follows a failure. -/
theorem bind_of_error {x : Traced η ε α} {e : ε} (h : x.outcome = .error e)
    (f : α → Traced η ε β) : x >>= f = ⟨x.events, .error e⟩ := by
  show x.andThen f = _
  rw [andThen, h]

/-- What follows a success notes its events behind those that are there. -/
theorem bind_of_ok {x : Traced η ε α} {a : α} (h : x.outcome = .ok a) (f : α → Traced η ε β) :
    x >>= f = ⟨x.events ++ (f a).events, (f a).outcome⟩ := by
  show x.andThen f = _
  rw [andThen, h]

/-- The outcomes follow each other as if nothing were noted. -/
@[simp] theorem outcome_bind (x : Traced η ε α) (f : α → Traced η ε β) :
    (x >>= f).outcome = x.outcome >>= fun a => (f a).outcome := by
  cases h : x.outcome with
  | error e => rw [bind_of_error h]; rfl
  | ok a => rw [bind_of_ok h]; rfl

/-- The outcomes for the items of a list follow each other. -/
@[simp] theorem outcome_forEach (f : α → Traced η ε β) (as : List α) :
    (forEach f as).outcome = as.mapM fun a => (f a).outcome := by
  induction as with
  | nil => rfl
  | cons a as ih =>
    rw [forEach, outcome_bind, List.mapM_cons]
    simp only [outcome_bind, ih]
    rfl

/-- How a sequence is grouped makes no difference. -/
theorem andThen_assoc {γ : Type} (x : Traced η ε α) (f : α → Traced η ε β) (g : β → Traced η ε γ) :
    x >>= f >>= g = x >>= fun a => f a >>= g := by
  cases h : x.outcome with
  | error e => rw [bind_of_error h, bind_of_error h, bind_of_error rfl]
  | ok a =>
    rw [bind_of_ok h, bind_of_ok h]
    cases hf : (f a).outcome with
    | error e => rw [bind_of_error hf, bind_of_error rfl]
    | ok b => rw [bind_of_ok hf, bind_of_ok rfl, List.append_assoc]

instance : LawfulMonad (Traced η ε) := LawfulMonad.mk' _
  (fun x => by
    cases h : x.outcome with
    | error e => exact (bind_of_error h _).trans (Traced.ext rfl h.symm)
    | ok a => exact (bind_of_ok h _).trans (Traced.ext (List.append_nil _) h.symm))
  (fun _ _ => rfl)
  andThen_assoc

end Traced

end DownloadReport
