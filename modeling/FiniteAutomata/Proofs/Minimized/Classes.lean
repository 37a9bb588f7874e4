import FiniteAutomata.Minimized.Quotient
import FiniteAutomata.Proofs.Minimized.Refinement
import Mathlib.Data.Finset.Card
import Mathlib.Data.Finset.Range

/-!
# Proofs/Minimized/Classes — how classes are numbered

Numbers are put into classes one after another, each into the class of the first leader that is
related to it. `Dfa.Classes.Grouped` says of the classes of the first numbers that each holds the
numbers related to its leader, who is the least of them, and that classes are numbered in the order
of their leaders. For the states of an automaton and the sink the relation is that no word tells
them apart (`Dfa.classOf_eq_iff`), and the classes of which some state is a member are those that
are kept (`Dfa.lt_classCount_iff`).
-/

namespace FiniteAutomata

namespace Dfa

/-! ## Placing numbers -/

/-- **The numbers below `n` are grouped by a relation**: the leaders come in ascending order, no two
of them related, each in the class that has its place; and every class has a leader, who is related
to all its members and comes first among them. -/
structure Classes.Grouped (r : Nat → Nat → Prop) (n : Nat) (s : Classes) : Prop where
  length_eq : s.classes.length = n
  ascending : s.leaders.Pairwise fun l l' => l < l' ∧ ¬ r l l'
  class_of_leader : ∀ c l : Nat, s.leaders[c]? = some l → s.classes[l]? = some c
  leader_of_class : ∀ j c : Nat, s.classes[j]? = some c →
    ∃ l, s.leaders[c]? = some l ∧ l ≤ j ∧ r l j

namespace Classes

variable {r : Nat → Nat → Prop} {apart : Nat → Nat → Bool} {n : Nat} {s : Classes}

theorem Grouped.lt_of_leader (h : s.Grouped r n) {c l : Nat} (hl : s.leaders[c]? = some l) :
    l < n :=
  h.length_eq ▸ (List.getElem?_eq_some_iff.mp (h.class_of_leader c l hl)).1

/-- The next number joins the class of a leader to whom it is related. -/
theorem Grouped.join (h : s.Grouped r n) {c l : Nat} (hl : s.leaders[c]? = some l) (hr : r l n) :
    Grouped r (n + 1) ⟨s.leaders, s.classes ++ [c]⟩ where
  length_eq := by simp [h.length_eq]
  ascending := h.ascending
  class_of_leader d k hk := getElem?_concat_eq_some_iff.mpr (.inl (h.class_of_leader d k hk))
  leader_of_class j d hd := by
    rcases getElem?_concat_eq_some_iff.mp hd with hd | ⟨rfl, rfl⟩
    · exact h.leader_of_class j d hd
    · rw [h.length_eq]
      exact ⟨l, hl, Nat.le_of_lt (h.lt_of_leader hl), hr⟩

/-- A number to which no leader is related leads a class of its own. -/
theorem Grouped.lead (h : s.Grouped r n) (hnew : ∀ l ∈ s.leaders, ¬ r l n) (hr : r n n) :
    Grouped r (n + 1) ⟨s.leaders ++ [n], s.classes ++ [s.leaders.length]⟩ where
  length_eq := by simp [h.length_eq]
  ascending := by
    refine List.pairwise_append.mpr ⟨h.ascending, List.pairwise_singleton _ _, fun l hl k hk => ?_⟩
    obtain rfl := List.mem_singleton.mp hk
    obtain ⟨c, hc⟩ := List.mem_iff_getElem?.mp hl
    exact ⟨h.lt_of_leader hc, hnew l hl⟩
  class_of_leader d k hk := by
    refine getElem?_concat_eq_some_iff.mpr ?_
    rcases getElem?_concat_eq_some_iff.mp hk with hk | ⟨rfl, rfl⟩
    · exact .inl (h.class_of_leader d k hk)
    · exact .inr ⟨h.length_eq.symm, rfl⟩
  leader_of_class j d hd := by
    rcases getElem?_concat_eq_some_iff.mp hd with hd | ⟨rfl, rfl⟩
    · obtain ⟨l, hl, hlj⟩ := h.leader_of_class j d hd
      exact ⟨l, getElem?_concat_eq_some_iff.mpr (.inl hl), hlj⟩
    · rw [h.length_eq]
      exact ⟨n, getElem?_concat_eq_some_iff.mpr (.inr ⟨rfl, rfl⟩), Nat.le_refl n, hr⟩

theorem Grouped.place (h : s.Grouped r n) (hr : r n n)
    (hapart : ∀ l < n, (apart l n = false ↔ r l n)) : (place apart s n).Grouped r (n + 1) := by
  rw [Classes.place]
  cases hfind : s.leaders.findIdx? fun l => !apart l n with
  | some c =>
    obtain ⟨hc, hnot, -⟩ := List.findIdx?_eq_some_iff_getElem.mp hfind
    have hleader : s.leaders[c]? = some s.leaders[c] := List.getElem?_eq_getElem hc
    refine h.join hleader ((hapart _ (h.lt_of_leader hleader)).mp ?_)
    simpa using hnot
  | none =>
    refine h.lead (fun l hl hrel => ?_) hr
    obtain ⟨c, hc⟩ := List.mem_iff_getElem?.mp hl
    have hnot := List.findIdx?_eq_none_iff.mp hfind l hl
    rw [(hapart l (h.lt_of_leader hc)).mpr hrel] at hnot
    nomatch hnot

/-- **The numbers below `n` are grouped by the relation that holds of those not apart.** -/
theorem grouped_below (hr : ∀ i, r i i) (n : Nat)
    (hapart : ∀ i < n, ∀ j < n, (apart i j = false ↔ r i j)) : (below apart n).Grouped r n := by
  induction n with
  | zero => exact ⟨rfl, .nil, by simp [below], by simp [below]⟩
  | succ n ih =>
    rw [below, List.range_succ, List.foldl_append]
    refine (ih fun i hi j hj => ?_).place (hr n) fun l hl => ?_
    · exact hapart i (Nat.lt_succ_of_lt hi) j (Nat.lt_succ_of_lt hj)
    · exact hapart l (Nat.lt_succ_of_lt hl) n (Nat.lt_succ_self n)

/-! ## Grouped numbers -/

/-- Leaders who are related are the same. -/
theorem Grouped.eq_of_leaders (h : s.Grouped r n) (hr : Equivalence r) {c d l k : Nat}
    (hl : s.leaders[c]? = some l) (hk : s.leaders[d]? = some k) (hlk : r l k) : c = d := by
  obtain ⟨hc, rfl⟩ := List.getElem?_eq_some_iff.mp hl
  obtain ⟨hd, rfl⟩ := List.getElem?_eq_some_iff.mp hk
  have hpair := List.pairwise_iff_getElem.mp h.ascending
  rcases Nat.lt_trichotomy c d with hlt | heq | hlt
  · exact absurd hlk (hpair c d hc hd hlt).2
  · exact heq
  · exact absurd (hr.symm hlk) (hpair d c hd hc hlt).2

/-- **Numbers are in the same class exactly when they are related.** -/
theorem Grouped.eq_iff (h : s.Grouped r n) (hr : Equivalence r) {i j c d : Nat}
    (hi : s.classes[i]? = some c) (hj : s.classes[j]? = some d) : c = d ↔ r i j := by
  obtain ⟨l, hl, -, hli⟩ := h.leader_of_class i c hi
  obtain ⟨k, hk, -, hkj⟩ := h.leader_of_class j d hj
  constructor
  · rintro rfl
    obtain rfl : l = k := Option.some.inj (hl.symm.trans hk)
    exact hr.trans (hr.symm hli) hkj
  · intro hij
    exact h.eq_of_leaders hr hl hk (hr.trans hli (hr.trans hij (hr.symm hkj)))

/-- Classes are numbered in the order of their leaders. -/
theorem Grouped.leader_le (h : s.Grouped r n) {c d l k : Nat} (hl : s.leaders[c]? = some l)
    (hk : s.leaders[d]? = some k) (hcd : c ≤ d) : l ≤ k := by
  obtain ⟨hc, rfl⟩ := List.getElem?_eq_some_iff.mp hl
  obtain ⟨hd, rfl⟩ := List.getElem?_eq_some_iff.mp hk
  rcases Nat.lt_or_eq_of_le hcd with hlt | rfl
  · exact Nat.le_of_lt (List.pairwise_iff_getElem.mp h.ascending c d hc hd hlt).1
  · exact Nat.le_refl _

end Classes

/-! ## The classes of an automaton -/

variable {σ : Type} [Identity σ] {D : Dfa σ} {i j c l : Nat}

theorem alike_equivalence (D : Dfa σ) : Equivalence D.Alike := ⟨Alike.refl, Alike.symm, Alike.trans⟩

/-- **States and the sink are grouped by whether some word tells them apart.** -/
theorem grouped_classes (D : Dfa σ) : D.classes.Grouped D.Alike (D.size + 1) :=
  Classes.grouped_below Alike.refl _ fun i hi j hj => by
    rw [Bool.eq_false_iff, Ne, has_refinement (Nat.le_of_lt_succ hi) (Nat.le_of_lt_succ hj),
      not_not]

/-- **The class of a state or the sink.** -/
def classOf (D : Dfa σ) (i : Nat) : Nat := D.classes.classes.getD i 0

theorem getElem?_classes (hi : i ≤ D.size) : D.classes.classes[i]? = some (D.classOf i) := by
  have hlt : i < D.classes.classes.length :=
    D.grouped_classes.length_eq.symm ▸ Nat.lt_succ_of_le hi
  simp [classOf, hlt]

/-- **Two states are in the same class exactly when no word tells them apart.** -/
theorem classOf_eq_iff (hi : i ≤ D.size) (hj : j ≤ D.size) :
    D.classOf i = D.classOf j ↔ D.Alike i j :=
  D.grouped_classes.eq_iff D.alike_equivalence (getElem?_classes hi) (getElem?_classes hj)

/-! ## Classes that are kept -/

/-- The leaders of the classes that are kept. -/
theorem getElem?_keptLeaders :
    (D.keptLeaders D.classes)[c]? = some l ↔ D.classes.leaders[c]? = some l ∧ l < D.size :=
  getElem?_filter_lt_eq_some_iff (D.grouped_classes.ascending.imp And.left)

/-- **The leader of a class comes first among its members and those of later classes.** -/
theorem classOf_leader (hl : (D.keptLeaders D.classes)[c]? = some l) :
    l < D.size ∧ D.classOf l = c ∧ ∀ i ≤ D.size, c ≤ D.classOf i → l ≤ i := by
  obtain ⟨hl, hlt⟩ := getElem?_keptLeaders.mp hl
  have hclass := D.grouped_classes.class_of_leader c l hl
  refine ⟨hlt, Option.some.inj ((getElem?_classes (Nat.le_of_lt hlt)).symm.trans hclass), ?_⟩
  intro i hi hci
  obtain ⟨k, hk, hki, -⟩ := D.grouped_classes.leader_of_class i _ (getElem?_classes hi)
  exact Nat.le_trans (D.grouped_classes.leader_le hl hk hci) hki

/-- The number of classes that are kept. -/
theorem classCount_minimize (D : Dfa σ) :
    D.minimize.classCount = (D.keptLeaders D.classes).length := by
  simp [minimize, quotient, Minimized.classCount]

/-- **A class is kept exactly when some state is a member.** -/
theorem lt_classCount_iff : c < D.minimize.classCount ↔ ∃ i < D.size, D.classOf i = c := by
  rw [classCount_minimize]
  constructor
  · intro hc
    have hl := classOf_leader (List.getElem?_eq_getElem hc)
    exact ⟨_, hl.1, hl.2.1⟩
  · rintro ⟨i, hi, rfl⟩
    obtain ⟨l, hl, hli, -⟩ :=
      D.grouped_classes.leader_of_class i _ (getElem?_classes (Nat.le_of_lt hi))
    have hkept := getElem?_keptLeaders.mpr ⟨hl, Nat.lt_of_le_of_lt hli hi⟩
    exact (List.getElem?_eq_some_iff.mp hkept).1

/-- **The assignment lists the classes of the states.** -/
theorem classAssignment_minimize (D : Dfa σ) :
    D.minimize.classAssignment = (List.range D.size).map D.classOf := by
  refine List.ext_getElem? fun i => ?_
  change (D.classes.classes.take D.size)[i]? = _
  rw [List.getElem?_take, List.getElem?_map]
  by_cases hi : i < D.size
  · rw [if_pos hi, getElem?_classes (Nat.le_of_lt hi), List.getElem?_range hi, Option.map_some]
  · rw [if_neg hi, List.getElem?_eq_none (by simpa using hi), Option.map_none]

theorem getElem?_classAssignment :
    D.minimize.classAssignment[i]? = some c ↔ i < D.size ∧ D.classOf i = c := by
  rw [classAssignment_minimize, List.getElem?_map, Option.map_eq_some_iff]
  constructor
  · rintro ⟨k, hk, rfl⟩
    obtain ⟨hlt, rfl⟩ := List.getElem?_eq_some_iff.mp hk
    exact ⟨by simpa using hlt, by simp⟩
  · rintro ⟨hlt, rfl⟩
    exact ⟨i, List.getElem?_range hlt, rfl⟩

theorem mem_classAssignment : c ∈ D.minimize.classAssignment ↔ c < D.minimize.classCount := by
  simp [classAssignment_minimize, lt_classCount_iff]

theorem classOf_lt_classCount (hi : i < D.size) : D.classOf i < D.minimize.classCount :=
  lt_classCount_iff.mpr ⟨i, hi, rfl⟩

/-- **There are as many classes as states exactly when no word leaves two states together.** -/
theorem classCount_eq_size_iff : D.minimize.classCount = D.size ↔
    ∀ i < D.size, ∀ j < D.size, D.Alike i j → i = j := by
  have himage : (Finset.range D.size).image D.classOf = Finset.range D.minimize.classCount := by
    ext c
    simp only [Finset.mem_image, Finset.mem_range, lt_classCount_iff]
  have hcard := Finset.card_image_iff (s := Finset.range D.size) (f := D.classOf)
  rw [himage, Finset.card_range, Finset.card_range] at hcard
  refine hcard.trans ⟨fun hinj i hi j hj halike => ?_, fun h i hi j hj heq => ?_⟩
  · refine hinj (Finset.mem_coe.mpr (Finset.mem_range.mpr hi))
      (Finset.mem_coe.mpr (Finset.mem_range.mpr hj)) ?_
    exact (classOf_eq_iff (Nat.le_of_lt hi) (Nat.le_of_lt hj)).mpr halike
  · have hi := Finset.mem_range.mp (Finset.mem_coe.mp hi)
    have hj := Finset.mem_range.mp (Finset.mem_coe.mp hj)
    exact h i hi j hj ((classOf_eq_iff (Nat.le_of_lt hi) (Nat.le_of_lt hj)).mp heq)

theorem exists_keptLeader (hc : c < D.minimize.classCount) :
    ∃ l, (D.keptLeaders D.classes)[c]? = some l :=
  ⟨_, List.getElem?_eq_getElem (D.classCount_minimize ▸ hc)⟩

/-- The leader of the class of a state is alike to it. -/
theorem exists_keptLeader_alike (hi : i ≤ D.size) (hc : D.classOf i < D.minimize.classCount) :
    ∃ l, (D.keptLeaders D.classes)[D.classOf i]? = some l ∧ D.Alike l i := by
  obtain ⟨l, hl⟩ := exists_keptLeader hc
  obtain ⟨hlt, hclass, -⟩ := classOf_leader hl
  exact ⟨l, hl, (classOf_eq_iff (Nat.le_of_lt hlt) hi).mp hclass⟩

/-! ## Classes are numbered as they first occur -/

/-- The class before that of a state has an earlier member. -/
theorem exists_classOf_before (hi : i < D.size) (hc : D.classOf i = c + 1) :
    ∃ k, k < i ∧ D.classOf k = c := by
  have hlt := classOf_lt_classCount hi
  obtain ⟨l, hl⟩ := exists_keptLeader (Nat.lt_of_succ_lt (hc ▸ hlt))
  obtain ⟨-, hclass, hfirst⟩ := classOf_leader hl
  refine ⟨l, Nat.lt_of_le_of_ne (hfirst i (Nat.le_of_lt hi) (hc ▸ Nat.le_succ c)) ?_, hclass⟩
  rintro rfl
  exact Nat.succ_ne_self c (hc.symm.trans hclass)

/-- The start state is in the first class. -/
theorem classOf_zero (D : Dfa σ) : D.classOf 0 = 0 := by
  cases hc : D.classOf 0 with
  | zero => rfl
  | succ c =>
    obtain ⟨k, hk, -⟩ := exists_classOf_before D.size_pos hc
    exact absurd hk (Nat.not_lt_zero k)

/-- **The entries are numbered as they first occur**: the first is zero, each other at most one more
than the greatest before it, and they are all numbers below `k`. -/
structure IsFirstOccurrence (k : Nat) (l : List Nat) : Prop where
  head : l[0]? = some 0
  le_succ_max : ∀ j c, 0 < j → l[j]? = some c → ∃ m, (l.take j).max? = some m ∧ c ≤ m + 1
  mem_iff : ∀ c, c ∈ l ↔ c < k

theorem isFirstOccurrence_classAssignment (D : Dfa σ) :
    IsFirstOccurrence D.minimize.classCount D.minimize.classAssignment where
  head := getElem?_classAssignment.mpr ⟨D.size_pos, D.classOf_zero⟩
  le_succ_max j c hj hc := by
    obtain ⟨hlt, rfl⟩ := getElem?_classAssignment.mp hc
    have hmem : ∀ {i d}, i < j → D.classOf i = d → d ∈ D.minimize.classAssignment.take j := by
      intro i d hij hd
      refine List.mem_of_getElem? (i := i) ?_
      rw [List.getElem?_take, if_pos hij]
      exact getElem?_classAssignment.mpr ⟨Nat.lt_trans hij hlt, hd⟩
    cases hmax : (D.minimize.classAssignment.take j).max? with
    | none =>
      have hnil := List.max?_eq_none_iff.mp hmax
      exact absurd (hmem hj rfl) (hnil ▸ List.not_mem_nil)
    | some m =>
      have hle := (List.max?_eq_some_iff.mp hmax).2
      refine ⟨m, rfl, ?_⟩
      cases hc : D.classOf j with
      | zero => exact Nat.zero_le _
      | succ d =>
        obtain ⟨i, hij, hd⟩ := exists_classOf_before hlt hc
        exact Nat.succ_le_succ (hle d (hmem hij hd))
  mem_iff _ := mem_classAssignment

/-- **Minimization puts two states into the same class exactly when no word over the alphabet is
accepted from one and not from the other**, and numbers the classes as they first occur. -/
theorem classAssignment_eq_iff (D : Dfa σ) :
    (∀ i < D.size, ∀ j < D.size,
      (D.minimize.classAssignment[i]? = D.minimize.classAssignment[j]? ↔
        ∀ w, (∀ a ∈ w, a ∈ D.alphabet) → D.acceptsFrom i w = D.acceptsFrom j w)) ∧
    D.minimize.classAssignment.length = D.size ∧
    IsFirstOccurrence D.minimize.classCount D.minimize.classAssignment := by
  refine ⟨fun i hi j hj => ?_, ?_, D.isFirstOccurrence_classAssignment⟩
  · rw [getElem?_classAssignment.mpr ⟨hi, rfl⟩, getElem?_classAssignment.mpr ⟨hj, rfl⟩,
      Option.some_inj, classOf_eq_iff (Nat.le_of_lt hi) (Nat.le_of_lt hj), alike_iff]
  · rw [classAssignment_minimize, List.length_map, List.length_range]

end Dfa

end FiniteAutomata
