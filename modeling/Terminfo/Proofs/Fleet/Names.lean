import Terminfo.Fleet
import Mathlib.Data.List.Perm.Basic

set_option autoImplicit false

namespace Terminfo.Fleet

variable {σ τ : Type} {name : String} {s t : σ} {l : List (String × σ)}

theorem lookup_cons_of_ne {other : String} (he : other ≠ name) :
    ((other, s) :: l).lookup name = l.lookup name := by
  rw [List.lookup_cons, beq_eq_false_iff_ne.2 (Ne.symm he)]

theorem perm_of_lookup (h : l.lookup name = some s) : l.Perm ((name, s) :: without name l) := by
  induction l with
  | nil => simp at h
  | cons entry rest ih =>
    obtain ⟨other, u⟩ := entry
    by_cases he : other = name
    · subst he
      obtain rfl : u = s := by simpa using h
      simp [without]
    · rw [lookup_cons_of_ne he] at h
      simp only [without, if_neg he]
      exact ((ih h).cons _).trans (.swap _ _ _)

theorem without_eq_self (h : l.lookup name = none) : without name l = l := by
  induction l with
  | nil => rfl
  | cons entry rest ih =>
    obtain ⟨other, u⟩ := entry
    by_cases he : other = name
    · simp [he] at h
    · rw [lookup_cons_of_ne he] at h
      simp [without, he, ih h]

theorem replace_perm (h : l.lookup name = some s) :
    (replace name t l).Perm ((name, t) :: without name l) := by
  induction l with
  | nil => simp at h
  | cons entry rest ih =>
    obtain ⟨other, u⟩ := entry
    by_cases he : other = name
    · simp [replace, without, he]
    · rw [lookup_cons_of_ne he] at h
      simp only [replace, without, if_neg he]
      exact ((ih h).cons _).trans (.swap _ _ _)

theorem replace_eq_self (h : l.lookup name = none) : replace name t l = l := by
  induction l with
  | nil => rfl
  | cons entry rest ih =>
    obtain ⟨other, u⟩ := entry
    by_cases he : other = name
    · simp [he] at h
    · rw [lookup_cons_of_ne he] at h
      simp [replace, he, ih h]

theorem replace_lookup (h : l.lookup name = some s) : replace name s l = l := by
  induction l with
  | nil => rfl
  | cons entry rest ih =>
    obtain ⟨other, u⟩ := entry
    by_cases he : other = name
    · subst he
      obtain rfl : u = s := by simpa using h
      simp [replace]
    · rw [lookup_cons_of_ne he] at h
      simp [replace, he, ih h]

theorem lookup_replace_of_ne {other : String} (hne : other ≠ name) :
    (replace other t l).lookup name = l.lookup name := by
  induction l with
  | nil => rfl
  | cons entry rest ih =>
    obtain ⟨key, u⟩ := entry
    by_cases hkey : key = other
    · subst hkey
      simp [replace, lookup_cons_of_ne hne]
    · simp [replace, hkey, List.lookup_cons, ih]

theorem lookup_replace_self (h : l.lookup name = some s) :
    (replace name t l).lookup name = some t := by
  induction l with
  | nil => cases h
  | cons entry rest ih =>
    obtain ⟨key, v⟩ := entry
    by_cases hkey : key = name
    · simp [replace, hkey]
    · rw [lookup_cons_of_ne hkey] at h
      simp only [replace, if_neg hkey, lookup_cons_of_ne hkey, ih h]

theorem mem_of_mem_replace {entry : String × σ} (h : entry ∈ replace name t l) :
    entry = (name, t) ∨ entry ∈ l := by
  cases hl : l.lookup name with
  | none => exact .inr (replace_eq_self hl ▸ h)
  | some s =>
    rcases List.mem_cons.1 ((replace_perm hl).mem_iff.1 h) with he | hrest
    · exact .inl he
    · exact .inr ((perm_of_lookup hl).mem_iff.2 (List.mem_cons_of_mem _ hrest))

theorem without_subset : without name l ⊆ l := by
  intro entry he
  cases hl : l.lookup name with
  | none => exact without_eq_self hl ▸ he
  | some s => exact (perm_of_lookup hl).mem_iff.2 (List.mem_cons_of_mem _ he)

theorem perm_of_hidden (h : hidden? name l = some s) :
    l.Perm ((name, s) :: withoutHidden name l) := by
  induction l with
  | nil => simp [hidden?] at h
  | cons entry rest ih =>
    obtain ⟨other, u⟩ := entry
    by_cases he : other = name
    · simp only [hidden?, withoutHidden, he, if_true] at h ⊢
      exact ((perm_of_lookup h).cons _).trans (.swap _ _ _)
    · simp only [hidden?, withoutHidden, if_neg he] at h ⊢
      exact ((ih h).cons _).trans (.swap _ _ _)

theorem withoutHidden_eq_self (h : hidden? name l = none) : withoutHidden name l = l := by
  induction l with
  | nil => rfl
  | cons entry rest ih =>
    obtain ⟨other, u⟩ := entry
    by_cases he : other = name
    · simp only [hidden?, he, if_true] at h
      simp [withoutHidden, he, without_eq_self h]
    · simp only [hidden?, if_neg he] at h
      simp [withoutHidden, he, ih h]

theorem withoutHidden_subset : withoutHidden name l ⊆ l := by
  intro entry he
  cases hl : hidden? name l with
  | none => exact withoutHidden_eq_self hl ▸ he
  | some s => exact (perm_of_hidden hl).mem_iff.2 (List.mem_cons_of_mem _ he)

def mapValues (g : σ → τ) (l : List (String × σ)) : List (String × τ) :=
  l.map fun entry ↦ (entry.1, g entry.2)

variable {g g' : σ → τ}

theorem mapValues_congr (h : ∀ entry ∈ l, g' entry.2 = g entry.2) :
    mapValues g' l = mapValues g l :=
  List.map_congr_left fun entry he ↦ by rw [h entry he]

theorem lookup_mapValues : (mapValues g l).lookup name = (l.lookup name).map g := by
  induction l with
  | nil => rfl
  | cons entry rest ih =>
    obtain ⟨other, u⟩ := entry
    by_cases he : other = name
    · simp [mapValues, he]
    · rw [lookup_cons_of_ne he, ← ih]
      exact lookup_cons_of_ne he

theorem without_mapValues : without name (mapValues g l) = mapValues g (without name l) := by
  induction l with
  | nil => rfl
  | cons entry rest ih =>
    simp only [mapValues, List.map_cons, without] at ih ⊢
    by_cases he : entry.1 = name
    · rw [if_pos he, if_pos he]
    · rw [if_neg he, if_neg he, ih, List.map_cons]

theorem withoutHidden_mapValues :
    withoutHidden name (mapValues g l) = mapValues g (withoutHidden name l) := by
  induction l with
  | nil => rfl
  | cons entry rest ih =>
    simp only [mapValues, List.map_cons, withoutHidden] at ih ⊢
    by_cases he : entry.1 = name
    · rw [if_pos he, if_pos he, List.map_cons]
      exact congrArg _ without_mapValues
    · rw [if_neg he, if_neg he, ih, List.map_cons]

theorem mapValues_replace (h : ∀ entry ∈ without name l, g' entry.2 = g entry.2) :
    mapValues g' (replace name t l) = replace name (g' t) (mapValues g l) := by
  induction l with
  | nil => rfl
  | cons entry rest ih =>
    obtain ⟨other, u⟩ := entry
    simp only [without, replace, mapValues, List.map_cons] at h ih ⊢
    by_cases he : other = name
    · rw [if_pos he] at h
      rw [if_pos he, if_pos he, List.map_cons]
      exact congrArg _ (mapValues_congr h)
    · rw [if_neg he] at h
      have hu : g' u = g u := h (other, u) List.mem_cons_self
      rw [if_neg he, if_neg he, List.map_cons, hu,
        ih fun entry hr ↦ h entry (List.mem_cons_of_mem _ hr)]

end Terminfo.Fleet
