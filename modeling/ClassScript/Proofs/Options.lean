import Mathlib.Data.Option.Basic
import Mathlib.Order.Basic

/-!
# Related options

Two lookups are related if both find something and what they find is related, or if both find nothing.
-/

namespace ClassScript

variable {α β γ δ : Type} {R : α → β → Prop}

@[simp]
theorem rel_some_some_iff {a : α} {b : β} : Option.Rel R (some a) (some b) ↔ R a b :=
  ⟨fun | .some h => h, .some⟩

@[simp]
theorem rel_none_none : Option.Rel R none none := .none

@[simp]
theorem not_rel_some_none {a : α} : ¬Option.Rel R (some a) none := nofun

@[simp]
theorem not_rel_none_some {b : β} : ¬Option.Rel R none (some b) := nofun

theorem rel_self {R : α → α → Prop} {a? : Option α} (h : ∀ a ∈ a?, R a a) : Option.Rel R a? a? := by
  cases a? with
  | none => exact .none
  | some a => exact .some (h a rfl)

theorem rel_congr {S : α → β → Prop} {a? : Option α} {b? : Option β}
    (h : ∀ a ∈ a?, ∀ b ∈ b?, R a b ↔ S a b) : Option.Rel R a? b? ↔ Option.Rel S a? b? := by
  cases a? <;> cases b? <;> simp_all

theorem rel_map_iff {S : γ → δ → Prop} {f : α → γ} {g : β → δ} {a? : Option α} {b? : Option β} :
    Option.Rel S (a?.map f) (b?.map g) ↔ Option.Rel (fun a b ↦ S (f a) (g b)) a? b? := by
  cases a? <;> cases b? <;> simp

theorem rel_map_iff_eq {S : γ → γ → Prop} {f : α → γ} (h : ∀ {a a' : α}, S (f a) (f a') ↔ a = a')
    {a? a'? : Option α} : Option.Rel S (a?.map f) (a'?.map f) ↔ a? = a'? := by
  cases a? <;> cases a'? <;> simp [h]

theorem rel_bind {S : γ → δ → Prop} {f : α → Option γ} {g : β → Option δ} {a? : Option α}
    {b? : Option β} (h : Option.Rel R a? b?)
    (hfg : ∀ a ∈ a?, ∀ b ∈ b?, R a b → Option.Rel S (f a) (g b)) :
    Option.Rel S (a?.bind f) (b?.bind g) := by
  cases h with
  | none => exact .none
  | some hab => exact hfg _ rfl _ rfl hab

theorem rel_bind_self {S : γ → δ → Prop} {f : α → Option γ} {g : α → Option δ} {a? : Option α}
    (hfg : ∀ a ∈ a?, Option.Rel S (f a) (g a)) : Option.Rel S (a?.bind f) (a?.bind g) := by
  cases a? with
  | none => exact .none
  | some a => exact hfg a rfl

theorem rel_map {S : γ → δ → Prop} {f : α → γ} {g : β → δ} {a? : Option α} {b? : Option β}
    (h : Option.Rel R a? b?) (hfg : ∀ a b, R a b → S (f a) (g b)) :
    Option.Rel S (a?.map f) (b?.map g) := by
  cases h with
  | none => exact .none
  | some hab => exact .some (hfg _ _ hab)

theorem map_eq_of_rel {f : α → γ} {g : β → γ} {a? : Option α} {b? : Option β}
    (h : Option.Rel R a? b?) (hfg : ∀ a b, R a b → f a = g b) : a?.map f = b?.map g := by
  cases h with
  | none => rfl
  | some hab => rw [Option.map_some, Option.map_some, hfg _ _ hab]

end ClassScript
