import Mathlib.Data.List.Find
import Mathlib.Data.List.Forall2

/-!
# Proofs/Entry — what stands where in a list

States, classes and symbols are numbered by their places in lists. Entries keep their places when a
list grows at its end (`getElem?_of_isPrefix`, `getElem?_concat_eq_some_iff`), and those of an
ascending list also when it is cut off at a bound (`getElem?_filter_lt_eq_some_iff`). A list is
related to some other, entry by entry, if each of its members is to something
(`exists_forall₂_iff`); what stands there is related to a member (`exists_of_forall₂_of_mem`). What
an entry must be like may depend on those before it (`EachAfter`).
-/

namespace FiniteAutomata

/-- An entry keeps its place when the list grows. -/
theorem getElem?_of_isPrefix {α : Type} {l m : List α} (h : l <+: m) {i : Nat} {x : α}
    (hi : l[i]? = some x) : m[i]? = some x := by
  obtain ⟨hlt, rfl⟩ := List.getElem?_eq_some_iff.mp hi
  exact List.prefix_iff_getElem?.mp h i hlt

/-- The entries of a list with one more. -/
theorem getElem?_concat_eq_some_iff {α : Type} {l : List α} {x y : α} {i : Nat} :
    (l ++ [x])[i]? = some y ↔ l[i]? = some y ∨ i = l.length ∧ x = y := by
  rcases Nat.lt_trichotomy i l.length with hlt | rfl | hlt
  · simp [List.getElem?_append_left hlt, Nat.ne_of_lt hlt]
  · simp
  · have hle : (l ++ [x]).length ≤ i := by simpa using Nat.succ_le_of_lt hlt
    simp [List.getElem?_eq_none hle, List.getElem?_eq_none (Nat.le_of_lt hlt), Nat.ne_of_gt hlt]

/-- Of an ascending list, the entries below a bound keep their places. -/
theorem getElem?_filter_lt_eq_some_iff {n c x : Nat} {l : List Nat} (hl : l.Pairwise (· < ·)) :
    (l.filter (· < n))[c]? = some x ↔ l[c]? = some x ∧ x < n := by
  induction l generalizing c with
  | nil => simp
  | cons y l ih =>
    obtain ⟨hy, hl⟩ := List.pairwise_cons.mp hl
    by_cases hyn : y < n
    · rw [List.filter_cons_of_pos (by simpa using hyn)]
      cases c with
      | zero => simpa using fun h : y = x => h ▸ hyn
      | succ c => simpa using ih hl
    · have hnone : ∀ z ∈ y :: l, ¬ z < n := List.forall_mem_cons.mpr
        ⟨hyn, fun z hz hzn => hyn (Nat.lt_trans (hy z hz) hzn)⟩
      rw [List.filter_eq_nil_iff.mpr (by simpa using hnone)]
      simpa using fun h => Nat.le_of_not_lt (hnone x (List.mem_of_getElem? h))

/-- What a place in a list decides as its element does, is found where the element is. -/
theorem map_find?_zipIdx {α : Type} (l : List α) {f : α × Nat → Bool} {g : α → Bool}
    (h : ∀ a k, l[k]? = some a → f (a, k) = g a) : (l.zipIdx.find? f).map (·.1) = l.find? g := by
  conv_rhs => rw [← List.zipIdx_map_fst 0 l, List.find?_map]
  refine congrArg _ (List.find?_congr fun e he => ?_)
  exact h e.1 e.2 (List.mem_zipIdx_iff_getElem?.mp he)

/-- Members that all come from a function make up the list of what it gives. -/
theorem forall_mem_eq_map {α β : Type} {f : α → β} {m : List β} :
    (∀ b ∈ m, ∃ a, b = f a) ↔ ∃ l : List α, m = l.map f := by
  induction m with
  | nil => exact ⟨fun _ => ⟨[], rfl⟩, fun _ _ h => absurd h List.not_mem_nil⟩
  | cons b m ih =>
    rw [List.forall_mem_cons, ih]
    constructor
    · rintro ⟨⟨a, rfl⟩, l, rfl⟩
      exact ⟨a :: l, rfl⟩
    · rintro ⟨l, h⟩
      obtain ⟨a, l, rfl, hb, hm⟩ := List.map_eq_cons_iff.mp h.symm
      exact ⟨⟨a, hb.symm⟩, l, hm.symm⟩

/-- **Some list is related to a list** if to each of its members something is. -/
theorem exists_forall₂_iff {α β : Type} {R : α → β → Prop} {l : List α} :
    (∃ m, List.Forall₂ R l m) ↔ ∀ a ∈ l, ∃ b, R a b := by
  induction l with
  | nil => exact ⟨fun _ _ h => absurd h List.not_mem_nil, fun _ => ⟨[], .nil⟩⟩
  | cons a l ih =>
    rw [List.forall_mem_cons, ← ih]
    constructor
    · rintro ⟨_ | ⟨b, m⟩, h⟩
      · exact nomatch h
      · obtain ⟨ha, hl⟩ := List.forall₂_cons.mp h
        exact ⟨⟨b, ha⟩, m, hl⟩
    · rintro ⟨⟨b, ha⟩, m, hl⟩
      exact ⟨b :: m, .cons ha hl⟩

/-- Lists are related through a third, if their entries are through something each. -/
theorem forall₂_exists_and_iff {α β γ : Type} {R : α → β → Prop} {S : β → γ → Prop} {l : List α}
    {n : List γ} : List.Forall₂ (fun a c => ∃ b, R a b ∧ S b c) l n ↔
      ∃ m, List.Forall₂ R l m ∧ List.Forall₂ S m n := by
  constructor
  · intro h
    induction h with
    | nil => exact ⟨[], .nil, .nil⟩
    | cons h _ ih =>
      obtain ⟨b, hR, hS⟩ := h
      obtain ⟨m, hl, hn⟩ := ih
      exact ⟨b :: m, .cons hR hl, .cons hS hn⟩
  · rintro ⟨m, hl, hn⟩
    induction hl generalizing n with
    | nil => exact List.forall₂_nil_left_iff.mp hn ▸ .nil
    | cons hR _ ih =>
      obtain ⟨c, n', hS, hn', rfl⟩ := List.forall₂_cons_left_iff.mp hn
      exact .cons ⟨_, hR, hS⟩ (ih hn')

/-- What stands in a related list is related to something in the first. -/
theorem exists_of_forall₂_of_mem {α β : Type} {R : α → β → Prop} {l : List α} {m : List β}
    (h : List.Forall₂ R l m) {b : β} (hb : b ∈ m) : ∃ a ∈ l, R a b := by
  induction h with
  | nil => exact absurd hb List.not_mem_nil
  | cons hab _ ih =>
    obtain rfl | hb := List.mem_cons.mp hb
    · exact ⟨_, List.mem_cons_self, hab⟩
    · obtain ⟨a, ha, hab⟩ := ih hb
      exact ⟨a, List.mem_cons_of_mem _ ha, hab⟩

/-- Where an entry is found depends on what is found of the entries alone. -/
theorem findIdx?_congr {α : Type} {l : List α} {f g : α → Bool} (h : ∀ x ∈ l, f x = g x) :
    l.findIdx? f = l.findIdx? g := by
  induction l with
  | nil => rfl
  | cons x l ih =>
    obtain ⟨hx, hl⟩ := List.forall_mem_cons.mp h
    rw [List.findIdx?_cons, List.findIdx?_cons, hx, ih hl]

/-- **Each entry of the list is in order after those before it.** -/
def EachAfter {α : Type} (ok : List α → α → Prop) (l : List α) : Prop :=
  ∀ before a after, l = before ++ a :: after → ok before a

theorem eachAfter_nil {α : Type} {ok : List α → α → Prop} : EachAfter ok [] :=
  fun before a after h => absurd h (by simp)

theorem eachAfter_concat_iff {α : Type} {ok : List α → α → Prop} {l : List α} {a : α} :
    EachAfter ok (l ++ [a]) ↔ EachAfter ok l ∧ ok l a := by
  constructor
  · refine fun h => ⟨fun before b after hl => h before b (after ++ [a]) (by simp [hl]), ?_⟩
    exact h l a [] rfl
  · rintro ⟨hl, ha⟩ before b after heq
    rcases List.eq_nil_or_concat after with rfl | ⟨rest, c, rfl⟩
    · obtain ⟨rfl, hlast⟩ := List.append_inj' heq rfl
      obtain rfl := List.singleton_inj.mp hlast
      exact ha
    · have heq' : l ++ [a] = (before ++ b :: rest) ++ [c] := by simpa using heq
      exact hl before b rest (List.append_inj' heq' rfl).1

end FiniteAutomata
