import FiniteAutomata.Json5.Basic
import FiniteAutomata.Proofs.Document.Parts
import Mathlib.Data.Option.Basic

/-!
# Proofs/Json5/Plain — a text spells a plain document

What is read from a text are arrays, objects and scalars, and numerals that stand for no number; no
part of an automaton is ever read off a text (`Json5.plain_of_read`).
-/

namespace FiniteAutomata

open Document

namespace Json5

variable {s rest : Text} {d : Document}

/-! ## Scalars -/

theorem plain_toDocument (x : Decimal) : x.toDocument.Plain := by
  unfold Decimal.toDocument
  split
  · split
    · exact plain_faulty
    · exact plain_leaf rfl
  · split
    · exact plain_faulty
    · exact plain_leaf rfl

theorem plain_of_hexInteger {negative : Bool} (h : hexInteger negative s = some (d, rest)) :
    d.Plain := by
  unfold hexInteger at h
  split at h
  · exact nomatch h
  · obtain ⟨rfl, _⟩ := Prod.mk.inj (Option.some.inj h)
    exact plain_leaf rfl

theorem plain_of_decimalNumber {negative : Bool}
    (h : decimalNumber negative s = some (d, rest)) : d.Plain := by
  unfold decimalNumber at h
  dsimp only at h
  split at h
  · exact nomatch h
  · obtain ⟨rfl, _⟩ := Prod.mk.inj (Option.some.inj h)
    exact plain_toDocument _

theorem plain_of_specialNumber {negative : Bool}
    (h : specialNumber negative s = some (d, rest)) : d.Plain := by
  obtain ⟨p, _, hp⟩ := List.exists_of_findSome?_eq_some h
  obtain ⟨_, _, hd⟩ := Option.map_eq_some_iff.mp hp
  obtain ⟨rfl, _⟩ := Prod.mk.inj hd
  exact plain_leaf rfl

theorem plain_of_unsignedNumber {negative : Bool}
    (h : unsignedNumber negative s = some (d, rest)) : d.Plain := by
  unfold unsignedNumber at h
  split at h
  · exact plain_of_hexInteger h
  · exact plain_of_hexInteger h
  · obtain h | ⟨_, h⟩ := (Option.orElse_eq_some _ _ _).mp h
    · exact plain_of_specialNumber h
    · exact plain_of_decimalNumber h

theorem plain_of_number (h : number s = some (d, rest)) : d.Plain := by
  unfold number at h
  split at h <;> exact plain_of_unsignedNumber h

theorem plain_of_scalar (h : scalar s = some (d, rest)) : d.Plain := by
  obtain h | ⟨_, h⟩ := (Option.orElse_eq_some _ _ _).mp h
  · obtain ⟨p, hp, h⟩ := List.exists_of_findSome?_eq_some h
    obtain ⟨_, _, hd⟩ := Option.map_eq_some_iff.mp h
    obtain ⟨rfl, _⟩ := Prod.mk.inj hd
    have hscalar : ∀ p ∈ constants, p.2.isScalar = true := by simp [constants, Value.isScalar]
    exact plain_leaf (hscalar p hp)
  · exact plain_of_number h

theorem plain_of_quotedText {quote : CodePoint}
    (h : (do let (t, s) ← quotedText quote s; return (leaf (.text t), s)) = some (d, rest)) :
    d.Plain := by
  obtain ⟨_, _, h⟩ := Option.bind_eq_some_iff.mp h
  obtain ⟨rfl, _⟩ := Prod.mk.inj (Option.some.inj h)
  exact plain_leaf rfl

/-! ## Values -/

section

variable {k : Nat} {ds : List Document} {es : List (Text × Document)}

theorem plain_of_valueWithin
    (hitems : ∀ s ds rest, itemsWithin k s = some (ds, rest) → ∀ d ∈ ds, d.Plain)
    (hentries : ∀ s es rest, entriesWithin k s = some (es, rest) → ∀ e ∈ es, e.2.Plain)
    (h : valueWithin (k + 1) s = some (d, rest)) : d.Plain := by
  unfold valueWithin at h
  obtain ⟨s, _, h⟩ := Option.bind_eq_some_iff.mp h
  split at h
  · obtain ⟨⟨items, s⟩, hs, h⟩ := Option.bind_eq_some_iff.mp h
    obtain ⟨rfl, _⟩ := Prod.mk.inj (Option.some.inj h)
    exact plain_array.mpr (hitems _ _ _ hs)
  · obtain ⟨⟨entries, s⟩, hs, h⟩ := Option.bind_eq_some_iff.mp h
    obtain ⟨rfl, _⟩ := Prod.mk.inj (Option.some.inj h)
    exact plain_object.mpr (hentries _ _ _ hs)
  · exact plain_of_quotedText h
  · exact plain_of_quotedText h
  · exact plain_of_scalar h

theorem plain_of_itemsWithin (hvalue : ∀ s d rest, valueWithin k s = some (d, rest) → d.Plain)
    (hitems : ∀ s ds rest, itemsWithin k s = some (ds, rest) → ∀ d ∈ ds, d.Plain)
    (h : itemsWithin (k + 1) s = some (ds, rest)) : ∀ d ∈ ds, d.Plain := by
  unfold itemsWithin at h
  obtain ⟨s, _, h⟩ := Option.bind_eq_some_iff.mp h
  split at h
  · obtain ⟨rfl, _⟩ := Prod.mk.inj (Option.some.inj h)
    exact fun _ hd => absurd hd List.not_mem_nil
  · obtain ⟨⟨d, s⟩, hd, h⟩ := Option.bind_eq_some_iff.mp h
    have hd := hvalue _ _ _ hd
    obtain ⟨s, _, h⟩ := Option.bind_eq_some_iff.mp h
    split at h
    · obtain ⟨⟨ds, s⟩, hds, h⟩ := Option.bind_eq_some_iff.mp h
      obtain ⟨rfl, _⟩ := Prod.mk.inj (Option.some.inj h)
      exact List.forall_mem_cons.mpr ⟨hd, hitems _ _ _ hds⟩
    · obtain ⟨rfl, _⟩ := Prod.mk.inj (Option.some.inj h)
      exact List.forall_mem_singleton.mpr hd
    · exact nomatch h

theorem plain_of_entriesWithin (hvalue : ∀ s d rest, valueWithin k s = some (d, rest) → d.Plain)
    (hentries : ∀ s es rest, entriesWithin k s = some (es, rest) → ∀ e ∈ es, e.2.Plain)
    (h : entriesWithin (k + 1) s = some (es, rest)) : ∀ e ∈ es, e.2.Plain := by
  unfold entriesWithin at h
  obtain ⟨s, _, h⟩ := Option.bind_eq_some_iff.mp h
  split at h
  · obtain ⟨rfl, _⟩ := Prod.mk.inj (Option.some.inj h)
    exact fun _ he => absurd he List.not_mem_nil
  · obtain ⟨⟨name, s⟩, _, h⟩ := Option.bind_eq_some_iff.mp h
    obtain ⟨s, _, h⟩ := Option.bind_eq_some_iff.mp h
    split at h
    · obtain ⟨⟨d, s⟩, hd, h⟩ := Option.bind_eq_some_iff.mp h
      have hd := hvalue _ _ _ hd
      obtain ⟨s, _, h⟩ := Option.bind_eq_some_iff.mp h
      split at h
      · obtain ⟨⟨es, s⟩, hes, h⟩ := Option.bind_eq_some_iff.mp h
        obtain ⟨rfl, _⟩ := Prod.mk.inj (Option.some.inj h)
        exact List.forall_mem_cons.mpr ⟨hd, hentries _ _ _ hes⟩
      · obtain ⟨rfl, _⟩ := Prod.mk.inj (Option.some.inj h)
        exact List.forall_mem_singleton.mpr hd
      · exact nomatch h
    · exact nomatch h

end

/-- Whatever is read to some depth is plain. By induction on the depth, for values, the items of
arrays and the entries of objects at once. -/
theorem plain_within (k : Nat) :
    (∀ s d rest, valueWithin k s = some (d, rest) → d.Plain) ∧
    (∀ s ds rest, itemsWithin k s = some (ds, rest) → ∀ d ∈ ds, d.Plain) ∧
    (∀ s es rest, entriesWithin k s = some (es, rest) → ∀ e ∈ es, e.2.Plain) := by
  induction k with
  | zero => exact ⟨nofun, nofun, nofun⟩
  | succ k ih =>
    obtain ⟨hvalue, hitems, hentries⟩ := ih
    exact ⟨fun _ _ _ => plain_of_valueWithin hitems hentries,
      fun _ _ _ => plain_of_itemsWithin hvalue hitems,
      fun _ _ _ => plain_of_entriesWithin hvalue hentries⟩

/-- **What a text spells is plain.** -/
theorem plain_of_read (h : read s = .ok d) : d.Plain := by
  unfold read at h
  split at h
  · exact nomatch h
  · split at h
    · rename_i d' _ hvalue
      split at h
      · obtain rfl := Except.ok.inj h
        exact (plain_within _).1 _ _ _ hvalue
      · exact nomatch h
    · exact nomatch h

end Json5

end FiniteAutomata
