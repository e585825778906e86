import BoxClient.Http.Head
import Mathlib.Data.List.Forall2
/-!
Looking a header up by name. The case of ASCII letters does not count, that of other letters does;
of several headers with one name the first is found.
-/
namespace BoxClient.Http

/-- The same character, or the two cases of one ASCII letter. -/
def SameLetter (c d : Char) : Prop :=
  c = d ∨ (c.isUpper ∧ d.toNat = c.toNat + 32) ∨ (d.isUpper ∧ c.toNat = d.toNat + 32)

def SameName (a b : String) : Prop := List.Forall₂ SameLetter a.toList b.toList

theorem isUpper_iff (c : Char) : c.isUpper = true ↔ 65 ≤ c.toNat ∧ c.toNat ≤ 90 := by
  change decide (c.val ≥ 'A'.val ∧ c.val ≤ 'Z'.val) = true ↔ _
  rw [decide_eq_true_eq, ge_iff_le, UInt32.le_iff_toNat_le, UInt32.le_iff_toNat_le]
  rfl

theorem toNat_toLower (c : Char) :
    c.toLower.toNat = if 65 ≤ c.toNat ∧ c.toNat ≤ 90 then c.toNat + 32 else c.toNat := by
  have hrange : (c.val ≥ 'A'.val ∧ c.val ≤ 'Z'.val) ↔ 65 ≤ c.toNat ∧ c.toNat ≤ 90 := by
    rw [ge_iff_le, UInt32.le_iff_toNat_le, UInt32.le_iff_toNat_le]
    rfl
  by_cases h : c.val ≥ 'A'.val ∧ c.val ≤ 'Z'.val
  · have hlower : c.toLower = _ := dif_pos h
    have hc := hrange.mp h
    rw [hlower, if_pos hc]
    change (c.val + ('a'.val - 'A'.val)).toNat = c.toNat + 32
    rw [UInt32.toNat_add]
    have hsmall : c.toNat + 32 < 2 ^ 32 := by omega
    exact Nat.mod_eq_of_lt hsmall
  · have hlower : c.toLower = c := dif_neg h
    rw [hlower, if_neg (fun hc => h (hrange.mpr hc))]

/-- Lowering the case makes only the two cases of one ASCII letter equal. -/
theorem toLower_eq_iff (c d : Char) : c.toLower = d.toLower ↔ SameLetter c d := by
  have hnat (a b : Char) : a = b ↔ a.toNat = b.toNat :=
    ⟨congrArg Char.toNat, fun h => Char.ext (UInt32.toNat_inj.mp h)⟩
  rw [SameLetter, hnat, hnat c d, toNat_toLower, toNat_toLower, isUpper_iff, isUpper_iff]
  constructor
  · intro h
    split at h <;> split at h <;> omega
  · intro h
    split <;> split <;> omega

theorem map_eq_map_iff_forall₂ {α β : Type} (f : α → β) (xs ys : List α) :
    xs.map f = ys.map f ↔ List.Forall₂ (fun x y => f x = f y) xs ys := by
  rw [← List.forall₂_eq_eq_eq, List.forall₂_map_left_iff, List.forall₂_map_right_iff]

/-- Lower-case forms agree exactly for names that differ in case at most. -/
theorem toLower_eq_toLower_iff (a b : String) : a.toLower = b.toLower ↔ SameName a b := by
  change a.map Char.toLower = b.map Char.toLower ↔ _
  rw [SameName, ← String.toList_inj, String.toList_map, String.toList_map,
    map_eq_map_iff_forall₂]
  simp only [toLower_eq_iff]

/-- Of headers with one name the first counts. -/
theorem get?_eq_some_iff {headers : Headers} {name value : String} :
    headers.get? name = some value ↔
      ∃ before found after, headers = before ++ (found, value) :: after ∧ SameName found name ∧
        ∀ h ∈ before, ¬ SameName h.1 name := by
  rw [Headers.get?, Option.map_eq_some_iff]
  simp only [List.find?_eq_some_iff_append, decide_eq_true_eq, toLower_eq_toLower_iff,
    Bool.not_eq_true', decide_eq_false_iff_not]
  constructor
  · intro h
    obtain ⟨⟨found, _⟩, ⟨hfound, before, after, hheaders, hbefore⟩, rfl⟩ := h
    exact ⟨before, found, after, hheaders, hfound, hbefore⟩
  · intro h
    obtain ⟨before, found, after, hheaders, hfound, hbefore⟩ := h
    exact ⟨(found, value), ⟨hfound, before, after, hheaders, hbefore⟩, rfl⟩

end BoxClient.Http
