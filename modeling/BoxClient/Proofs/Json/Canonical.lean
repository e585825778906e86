import BoxClient.Proofs.Json.Reading
import BoxClient.Proofs.Table
/-!
Values that are read have their objects sorted, at every depth, whatever order the text has them in
and however often it repeats a key.
-/
namespace BoxClient.Json

open Outcome

inductive Value.Canonical : Value → Prop
  | null : Canonical .null
  | boolean (b : Bool) : Canonical (.boolean b)
  | number (n : Number) : Canonical (.number n)
  | string (s : String) : Canonical (.string s)
  | array {vs : List Value} : (∀ v ∈ vs, Canonical v) → Canonical (.array vs)
  | object {t : Table Value} : t.Sorted → (∀ p ∈ t, Canonical p.2) → Canonical (.object t)

/-- Entries keep a table sorted and its values as they should be. -/
theorem entry_gives {α : Type} {value : Reader α} {P : α → Prop} (hvalue : value.Gives P)
    (t : Table α) (name : String) (ht : t.Sorted ∧ ∀ p ∈ t, P p.2) :
    (entry value t name).Gives fun t' => t'.Sorted ∧ ∀ p ∈ t', P p.2 := by
  intro bs t' r h
  obtain ⟨_, -, h⟩ := bind_eq_ok.mp h
  obtain ⟨⟨a, r'⟩, ha, h⟩ := bind_eq_ok.mp h
  cases h
  refine ⟨ht.1.insert name a, fun p hp => ?_⟩
  rcases Table.mem_insert hp with rfl | hp
  · exact hvalue _ _ _ ha
  · exact ht.2 p hp

namespace Value

theorem readerOver_canonical {inside : Option (Reader Value)}
    (h : ∀ value ∈ inside, value.Gives Canonical) : (readerOver inside).Gives Canonical := by
  intro bs v r hv
  obtain ⟨b, r', -, hv⟩ := readFrom_of_readerOver hv
  cases v with
  | null => exact .null
  | boolean c => exact .boolean c
  | number m => exact .number m
  | string s => exact .string s
  | array vs =>
    obtain ⟨-, value, rfl, hvs⟩ := hv
    exact .array (items_gives (h value rfl) _ _ _ _ _ hvs)
  | object t =>
    obtain ⟨-, value, rfl, ht⟩ := hv
    have hempty : Table.Sorted ([] : Table Value) ∧ ∀ p ∈ ([] : Table Value), p.2.Canonical :=
      ⟨List.Pairwise.nil, nofun⟩
    obtain ⟨hsorted, hvalues⟩ := members_gives (entry_gives (h value rfl)) _ _ hempty _ _ _ ht
    exact .object hsorted hvalues

/-- A reader puts members into order as they come in. -/
theorem reader_canonical (depth : Nat) : (reader depth).Gives Canonical := by
  induction depth with
  | zero => exact readerOver_canonical (by simp)
  | succ depth ih =>
    refine readerOver_canonical fun value hvalue => ?_
    cases hvalue
    exact ih

end Value

theorem canonical_of_decode {text : Bytes} {v : Value} (h : decode text = .ok v) : v.Canonical := by
  obtain ⟨r, hread, -⟩ := decode_eq_ok_iff.mp h
  exact Value.reader_canonical _ _ _ _ hread

end BoxClient.Json
