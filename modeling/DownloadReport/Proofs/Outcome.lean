import DownloadReport.Traced
import Mathlib.Data.List.Forall2

/-! When a computation that may fail succeeds, part by part and item by item; and when two computations
    succeed together (`Agree`), as they do when they go through the same steps with related results
    (`Agree.bind`). -/

namespace DownloadReport

variable {ε δ α β : Type}

@[simp] theorem ok_bind (a : α) (f : α → Except ε β) : Except.ok a >>= f = f a := rfl

@[simp] theorem error_bind (e : ε) (f : α → Except ε β) : Except.error e >>= f = .error e := rfl

theorem pure_eq_ok_iff {a b : α} : (pure a : Except ε α) = .ok b ↔ b = a := by
  show Except.ok a = Except.ok b ↔ b = a
  rw [Except.ok.injEq, eq_comm]

/-- A sequence succeeds when both of its parts do. -/
theorem bind_eq_ok_iff {x : Except ε α} {f : α → Except ε β} {b : β} :
    x >>= f = .ok b ↔ ∃ a, x = .ok a ∧ f a = .ok b := by
  cases x with
  | error e =>
    constructor
    · exact nofun
    · rintro ⟨_, ⟨⟩, _⟩
  | ok a =>
    constructor
    · exact fun h => ⟨a, rfl, h⟩
    · rintro ⟨_, ⟨⟩, h⟩; exact h

/-- A check succeeds, and then what follows it. -/
theorem check_eq_ok_iff {x : Except ε Unit} {y : Except ε β} {b : β} :
    (do x; y) = .ok b ↔ x = .ok () ∧ y = .ok b := by
  rw [bind_eq_ok_iff]
  exact ⟨fun ⟨(), hx, hy⟩ => ⟨hx, hy⟩, fun ⟨hx, hy⟩ => ⟨(), hx, hy⟩⟩

theorem map_eq_ok_iff {x : Except ε α} {f : α → β} {b : β} :
    x.map f = .ok b ↔ ∃ a, x = .ok a ∧ f a = b := by
  cases x <;> simp [Except.map]

theorem map_eq_error_iff {x : Except ε α} {f : α → β} {e : ε} : x.map f = .error e ↔ x = .error e := by
  cases x <;> simp [Except.map]

theorem mapError_eq_ok_iff {x : Except ε α} {f : ε → δ} {a : α} :
    x.mapError f = .ok a ↔ x = .ok a := by
  cases x with
  | ok b =>
    constructor
    · rintro ⟨⟩; rfl
    · rintro ⟨⟩; rfl
  | error e => exact ⟨nofun, nofun⟩

/-- A sequence fails when its first part does, or else when its second part does. -/
theorem bind_eq_error_iff {x : Except ε α} {f : α → Except ε β} {e : ε} :
    x >>= f = .error e ↔ x = .error e ∨ ∃ a, x = .ok a ∧ f a = .error e := by
  cases x with
  | error e' => simp
  | ok a => simp

theorem mapError_eq_error_iff {x : Except ε α} {f : ε → δ} {e : δ} :
    x.mapError f = .error e ↔ ∃ e', x = .error e' ∧ e = f e' := by
  cases x with
  | ok a =>
    constructor
    · exact nofun
    · rintro ⟨_, ⟨⟩, _⟩
  | error e' => simp [Except.mapError, eq_comm]

/-! ### Item by item -/

/-- What is on the left of related lists is related to something on the right. -/
theorem exists_mem_right {R : α → β → Prop} {as : List α} {bs : List β} (h : List.Forall₂ R as bs)
    {a : α} (ha : a ∈ as) : ∃ b ∈ bs, R a b := by
  induction h with
  | nil => exact absurd ha List.not_mem_nil
  | cons hab _ ih =>
    rcases List.mem_cons.1 ha with rfl | ha
    · exact ⟨_, List.mem_cons_self, hab⟩
    · obtain ⟨b, hb, hab⟩ := ih ha
      exact ⟨b, List.mem_cons_of_mem _ hb, hab⟩

theorem exists_mem_left {R : α → β → Prop} {as : List α} {bs : List β} (h : List.Forall₂ R as bs)
    {b : β} (hb : b ∈ bs) : ∃ a ∈ as, R a b :=
  exists_mem_right h.flip hb

/-- When each item of a list is related to something, the list is related to a list. -/
theorem exists_forall₂ {R : α → β → Prop} {as : List α} (h : ∀ a ∈ as, ∃ b, R a b) :
    ∃ bs, List.Forall₂ R as bs := by
  induction as with
  | nil => exact ⟨[], .nil⟩
  | cons a as ih =>
    obtain ⟨⟨b, hab⟩, has⟩ := List.forall_mem_cons.1 h
    obtain ⟨bs, hbs⟩ := ih has
    exact ⟨b :: bs, .cons hab hbs⟩

/-- A list that is related to another can be split where the other is. -/
theorem forall₂_split {R : α → β → Prop} {before after : List α} {a : α} {bs : List β}
    (h : List.Forall₂ R (before ++ a :: after) bs) :
    ∃ before' b after', bs = before' ++ b :: after' ∧ List.Forall₂ R before before' ∧ R a b ∧
      List.Forall₂ R after after' := by
  induction before generalizing bs with
  | nil =>
    obtain ⟨b, after', hab, hafter, rfl⟩ := List.forall₂_cons_left_iff.1 h
    exact ⟨[], b, after', rfl, .nil, hab, hafter⟩
  | cons c before ih =>
    obtain ⟨d, rest, hcd, hrest, rfl⟩ := List.forall₂_cons_left_iff.1 h
    obtain ⟨before', b, after', rfl, hbefore, hab, hafter⟩ := ih hrest
    exact ⟨d :: before', b, after', rfl, .cons hcd hbefore, hab, hafter⟩

/-- Lists are related in two steps just when their items are. -/
theorem forall₂_comp_iff {γ : Type} {R : α → β → Prop} {S : β → γ → Prop} {as : List α}
    {cs : List γ} :
    List.Forall₂ (fun a c => ∃ b, R a b ∧ S b c) as cs ↔
      ∃ bs, List.Forall₂ R as bs ∧ List.Forall₂ S bs cs := by
  constructor
  · intro h
    induction h with
    | nil => exact ⟨[], .nil, .nil⟩
    | cons hac _ ih =>
      obtain ⟨b, hab, hbc⟩ := hac
      obtain ⟨bs, habs, hbcs⟩ := ih
      exact ⟨b :: bs, .cons hab habs, .cons hbc hbcs⟩
  · rintro ⟨bs, habs, hbcs⟩
    induction habs generalizing cs with
    | nil =>
      cases hbcs
      exact .nil
    | cons hab _ ih =>
      cases hbcs with
      | cons hbc hbcs => exact .cons ⟨_, hab, hbc⟩ (ih hbcs)

/-- Doing the same for each item of a list succeeds item by item. -/
theorem mapM_eq_ok_iff {f : α → Except ε β} {as : List α} {bs : List β} :
    as.mapM f = .ok bs ↔ List.Forall₂ (fun a b => f a = .ok b) as bs := by
  induction as generalizing bs with
  | nil =>
    rw [List.mapM_nil, pure_eq_ok_iff, List.forall₂_nil_left_iff]
  | cons a as ih =>
    simp only [List.mapM_cons, bind_eq_ok_iff, pure_eq_ok_iff, ih]
    constructor
    · rintro ⟨b, hb, bs, hbs, rfl⟩
      exact .cons hb hbs
    · intro h
      cases h with
      | cons hb hbs => exact ⟨_, hb, _, hbs, rfl⟩

/-- Doing the same for each item of a list fails at the first item for which it fails. -/
theorem mapM_eq_error_iff {f : α → Except ε β} {as : List α} {e : ε} :
    as.mapM f = .error e ↔
      ∃ before a after, as = before ++ a :: after ∧ (∀ b ∈ before, ∃ c, f b = .ok c) ∧
        f a = .error e := by
  induction as with
  | nil =>
    constructor
    · exact nofun
    · rintro ⟨before, a, after, h, _⟩
      simp at h
  | cons a as ih =>
    rw [List.mapM_cons, bind_eq_error_iff]
    constructor
    · rintro (ha | ⟨b, hb, htail⟩)
      · exact ⟨[], a, as, rfl, nofun, ha⟩
      · rcases bind_eq_error_iff.1 htail with has | ⟨bs, _, hpure⟩
        · obtain ⟨before, c, after, rfl, hbefore, hc⟩ := ih.1 has
          exact ⟨a :: before, c, after, rfl, List.forall_mem_cons.2 ⟨⟨b, hb⟩, hbefore⟩, hc⟩
        · exact nomatch hpure
    · rintro ⟨before, c, after, hsplit, hbefore, hc⟩
      cases before with
      | nil =>
        obtain ⟨rfl, rfl⟩ := List.cons.inj hsplit
        exact .inl hc
      | cons a' before =>
        obtain ⟨rfl, rfl⟩ := List.cons.inj hsplit
        obtain ⟨⟨b, hb⟩, hbefore⟩ := List.forall_mem_cons.1 hbefore
        have has := ih.2 ⟨before, c, after, rfl, hbefore, hc⟩
        exact .inr ⟨b, hb, bind_eq_error_iff.2 (.inl has)⟩

/-- What may be there succeeds when it is not there, and otherwise as it does. -/
theorem forSome_eq_ok_iff {η : Type} {f : α → Traced η ε β} {a : Option α} {b : Option β} :
    (Traced.forSome f a).outcome = .ok b ↔ Option.Rel (fun a b => (f a).outcome = .ok b) a b := by
  cases a with
  | none =>
    rw [Traced.forSome, Traced.outcome_pure, Except.ok.injEq]
    constructor
    · rintro rfl; exact .none
    · intro h; cases h; rfl
  | some a =>
    simp only [Traced.forSome, Traced.outcome_bind, Traced.outcome_pure, bind_eq_ok_iff,
      Except.ok.injEq]
    constructor
    · rintro ⟨b, hb, rfl⟩; exact .some hb
    · intro h
      cases h with
      | some hb => exact ⟨_, hb, rfl⟩

/-! ### Two computations that succeed together -/

/-- Two computations both fail, or both succeed with related results. -/
inductive Agree (R : α → β → Prop) : Except ε α → Except δ β → Prop where
  | ok {a : α} {b : β} (h : R a b) : Agree R (.ok a) (.ok b)
  | error (e : ε) (e' : δ) : Agree R (.error e) (.error e')

variable {R : α → β → Prop} {x : Except ε α} {y : Except δ β}

/-- Computations that agree go on to agree when they go on alike. -/
theorem Agree.bind {α' β' : Type} {S : α' → β' → Prop} {f : α → Except ε α'}
    {g : β → Except δ β'} (h : Agree R x y) (hf : ∀ a b, R a b → Agree S (f a) (g b)) :
    Agree S (x >>= f) (y >>= g) := by
  cases h with
  | ok h => exact hf _ _ h
  | error e e' => exact .error e e'

theorem Agree.map {α' β' : Type} {S : α' → β' → Prop} {f : α → α'} {g : β → β'}
    (h : Agree R x y) (hf : ∀ a b, R a b → S (f a) (g b)) : Agree S (x.map f) (y.map g) := by
  cases h with
  | ok h => exact .ok (hf _ _ h)
  | error e e' => exact .error e e'

/-- Computations with one result agree just when they succeed together. -/
theorem agree_eq_iff {x : Except ε α} {y : Except δ α} :
    Agree Eq x y ↔ ∀ a, x = .ok a ↔ y = .ok a := by
  constructor
  · rintro (⟨⟨rfl⟩⟩ | ⟨e, e'⟩) <;> simp
  · intro h
    cases x with
    | ok a => rw [(h a).1 rfl]; exact .ok rfl
    | error e =>
      cases y with
      | ok b => exact absurd ((h b).2 rfl) nofun
      | error e' => exact .error e e'

end DownloadReport
