import FiniteAutomata.Proofs.Minimized.Quotient
import FiniteAutomata.Proofs.Outcome
import Mathlib.Data.List.Sort
import Mathlib.Order.Hom.Basic

/-!
# Proofs/Minimized/Live — classes from which something is accepted

A class is live if some word is accepted from it; moves to other classes may as well be missing.
`Minimized.IsLiveIso` says that a bijection between the live classes of two automata that keeps
their order also keeps moves, acceptance and the start class. Such a bijection keeps the words that
are accepted (`Minimized.IsLiveIso.accepts_iff`), and if all classes are live it leaves no
difference at all (`Minimized.IsLiveIso.rows_eq_of_live`).
-/

namespace FiniteAutomata

namespace Minimized

variable {M M₁ M₂ : Minimized Nat} {c d : Nat} {a : Symbol} {w : List Symbol}

/-! ## Automata with a row for each class -/

/-- **Each class lists a target or none for every symbol of the alphabet**, all targets are classes,
and the accepting classes are listed in ascending order. -/
structure WellFormed (M : Minimized Nat) : Prop where
  row_eq : ∀ row ∈ M.rows, ∃ t : Symbol → Option Nat,
    (∀ a d, t a = some d → d < M.classCount) ∧
      row = M.alphabet.symbols.map fun a => (.text a, t a)
  ascending : M.accepting.Pairwise (· < ·)
  accepting_lt : ∀ c ∈ M.accepting, c < M.classCount

/-- The targets that a class lists are those it has. -/
theorem WellFormed.exists_targets (h : M.WellFormed) (hc : c < M.classCount) :
    ∃ t : Symbol → Option Nat,
      M.rows[c]? = some (M.alphabet.symbols.map fun a => (.text a, t a)) ∧
      (∀ a ∈ M.alphabet, M.query (.int c) (.text a) = .ok (t a)) ∧
      ∀ a d, t a = some d → d < M.classCount := by
  have hrow : M.rows[c]? = some M.rows[c] := List.getElem?_eq_getElem hc
  obtain ⟨t, hlt, heq⟩ := h.row_eq _ (List.getElem_mem hc)
  rw [heq] at hrow
  refine ⟨t, hrow, fun a ha => ?_, hlt⟩
  rw [query, rowOf_int hrow]
  exact targetIn_map ha t

/-- Targets are classes. -/
theorem WellFormed.query_lt (h : M.WellFormed) (hc : c < M.classCount) (ha : a ∈ M.alphabet)
    (hd : M.query (.int c) (.text a) = .ok (some d)) : d < M.classCount := by
  obtain ⟨t, -, hquery, hlt⟩ := h.exists_targets hc
  exact hlt a d (Except.ok.inj ((hquery a ha).symm.trans hd))

/-- **The rows list for each class the targets it has.** -/
theorem WellFormed.rows_eq_map (h : M.WellFormed) {t : Nat → Symbol → Option Nat}
    (ht : ∀ c < M.classCount, ∀ a ∈ M.alphabet, M.query (.int c) (.text a) = .ok (t c a)) :
    M.rows = (List.range M.classCount).map fun c =>
      M.alphabet.symbols.map fun a => (.text a, t c a) := by
  refine List.ext_getElem? fun c => ?_
  by_cases hc : c < M.classCount
  · obtain ⟨u, hrow, hquery, -⟩ := h.exists_targets hc
    rw [hrow, List.getElem?_map, List.getElem?_range hc, Option.map_some, Option.some_inj,
      List.map_inj_left]
    intro a ha
    rw [Except.ok.inj ((hquery a ha).symm.trans (ht c hc a ha))]
  · rw [List.getElem?_eq_none (Nat.le_of_not_lt hc), List.getElem?_eq_none (by simpa using hc)]

/-- The targets of all classes can be told if the targets of each can. -/
theorem allRows_eq_map {t : Nat → Symbol → Option Nat}
    (ht : ∀ c < M.classCount, ∀ a ∈ M.alphabet, M.query (.int c) (.text a) = .ok (t c a)) :
    M.allRows = .ok ((List.range M.classCount).map fun c => M.alphabet.symbols.map (t c)) :=
  mapM_eq_ok_map fun c hc => mapM_eq_ok_map fun a ha => ht c (List.mem_range.mp hc) a ha

/-- **Rows are equal if the targets are**, class by class. -/
theorem WellFormed.rows_eq (h₁ : M₁.WellFormed) (h₂ : M₂.WellFormed)
    (halphabet : M₁.alphabet = M₂.alphabet) (hcount : M₁.classCount = M₂.classCount)
    (hquery : ∀ c < M₁.classCount, ∀ a ∈ M₁.alphabet,
      M₁.query (.int c) (.text a) = M₂.query (.int c) (.text a)) : M₁.rows = M₂.rows := by
  choose! t _ ht _ using fun (c : Nat) (hc : c < M₁.classCount) => h₁.exists_targets hc
  have ht' : ∀ c < M₂.classCount, ∀ a ∈ M₂.alphabet,
      M₂.query (.int c) (.text a) = .ok (t c a) := by
    rw [← hcount, ← halphabet]
    exact fun c hc a ha => (hquery c hc a ha).symm.trans (ht c hc a ha)
  rw [h₁.rows_eq_map ht, h₂.rows_eq_map ht', halphabet, hcount]

theorem acceptsFrom_nil_eq_ok_true : M.acceptsFrom (.int c) [] = .ok true ↔ c ∈ M.accepting := by
  change Except.ok (M.isAmongAccepting (.int c)) = _ ↔ _
  simp [isAmongAccepting, ClassName.toValue, Value.same_int]

/-- A word is accepted if its first symbol leads to a class that accepts the rest. -/
theorem acceptsFrom_cons_eq_ok_true : M.acceptsFrom (.int c) (a :: w) = .ok true ↔
    a ∈ M.alphabet ∧ ∃ d, M.query (.int c) (.text a) = .ok (some d) ∧
      M.acceptsFrom (.int d) w = .ok true := by
  rw [acceptsFrom]
  by_cases ha : a ∈ M.alphabet
  · rw [if_pos ha, and_iff_right ha]
    cases hq : M.query (.int c) (.text a) with
    | error e => simp [bind, Except.bind]
    | ok t =>
      cases t with
      | none => simp [bind, Except.bind, pure, Except.pure]
      | some d => simp [bind, Except.bind, ClassName.toValue]
  · simp [ha]

/-- **The accepting classes in ascending order** are the accepting classes as they are listed. -/
theorem WellFormed.acceptStates_eq (h : M.WellFormed) :
    M.acceptStates = .ok (M.accepting.map ClassName.toValue) := by
  refine Sorting.sort_of_pairwise _ (List.pairwise_map.mpr (h.ascending.imp fun {c d} hcd => ?_))
  have hnot : ¬ ((d : Int) < c) := Int.not_lt.mpr (Int.ofNat_le.mpr (Nat.le_of_lt hcd))
  change Except.ok (decide ((d : Int) < c)) = _
  rw [decide_eq_false hnot]

/-! ## Live classes -/

/-- **Some word is accepted from the class.** -/
def Live (M : Minimized Nat) (c : Nat) : Prop :=
  c < M.classCount ∧ ∃ w, M.acceptsFrom (.int c) w = .ok true

/-- **Some word is accepted from every class.** -/
def AllLive (M : Minimized Nat) : Prop := ∀ c < M.classCount, M.Live c

/-- The live classes, ordered by their numbers. -/
abbrev LiveClass (M : Minimized Nat) := { c : Nat // M.Live c }

/-- **The bijection that keeps the order of the live classes keeps the automaton**: it leads targets
to targets and accepting classes to accepting ones, and start class to start class, of which both
or neither are live. A target that is not live counts as missing. -/
structure IsLiveIso (f : M₁.LiveClass ≃o M₂.LiveClass) : Prop where
  query_iff : ∀ (c d : M₁.LiveClass) (a : Symbol), a ∈ M₁.alphabet →
    (M₁.query (.int c.1) (.text a) = .ok (some d.1) ↔
      M₂.query (.int (f c).1) (.text a) = .ok (some (f d).1))
  accepting_iff : ∀ c : M₁.LiveClass, c.1 ∈ M₁.accepting ↔ (f c).1 ∈ M₂.accepting
  live_zero_iff : M₁.Live 0 ↔ M₂.Live 0
  map_zero : ∀ h : M₁.Live 0, (f ⟨0, h⟩).1 = 0

namespace IsLiveIso

variable {f : M₁.LiveClass ≃o M₂.LiveClass}

theorem symm (h : IsLiveIso f) (halphabet : M₁.alphabet = M₂.alphabet) : IsLiveIso f.symm where
  query_iff c d a ha := by
    simpa using (h.query_iff (f.symm c) (f.symm d) a (halphabet ▸ ha)).symm
  accepting_iff c := by simpa using (h.accepting_iff (f.symm c)).symm
  live_zero_iff := h.live_zero_iff.symm
  map_zero hlive := by
    have hzero := h.live_zero_iff.mpr hlive
    rw [f.symm_apply_eq.mpr (Subtype.ext (h.map_zero hzero).symm : _ = f ⟨0, hzero⟩)]

/-- What is accepted from a live class is accepted from its image. -/
theorem acceptsFrom_map (h : IsLiveIso f) (hM : M₁.WellFormed)
    (halphabet : M₁.alphabet = M₂.alphabet) (c : M₁.LiveClass)
    (hw : M₁.acceptsFrom (.int c.1) w = .ok true) :
    M₂.acceptsFrom (.int (f c).1) w = .ok true := by
  induction w generalizing c with
  | nil =>
    have hacc := (h.accepting_iff c).mp (acceptsFrom_nil_eq_ok_true.mp hw)
    exact acceptsFrom_nil_eq_ok_true.mpr hacc
  | cons a w ih =>
    obtain ⟨ha, d, hd, hw⟩ := acceptsFrom_cons_eq_ok_true.mp hw
    have hlive : M₁.Live d := ⟨hM.query_lt c.2.1 ha hd, w, hw⟩
    refine acceptsFrom_cons_eq_ok_true.mpr ⟨halphabet ▸ ha, (f ⟨d, hlive⟩).1, ?_, ih _ hw⟩
    exact (h.query_iff c ⟨d, hlive⟩ a ha).mp hd

/-- What one automaton accepts the other accepts. -/
theorem accepts_map (h : IsLiveIso f) (hM : M₁.WellFormed)
    (halphabet : M₁.alphabet = M₂.alphabet) (hpos : 0 < M₁.classCount)
    (hw : M₁.accepts w = .ok true) : M₂.accepts w = .ok true := by
  have hlive : M₁.Live 0 := ⟨hpos, w, hw⟩
  have himage := h.acceptsFrom_map hM halphabet ⟨0, hlive⟩ hw
  rwa [h.map_zero hlive] at himage

/-- **Both automata accept the same words.** -/
theorem accepts_iff (h : IsLiveIso f) (hM₁ : M₁.WellFormed) (hM₂ : M₂.WellFormed)
    (halphabet : M₁.alphabet = M₂.alphabet) (hpos₁ : 0 < M₁.classCount)
    (hpos₂ : 0 < M₂.classCount) : M₁.accepts w = .ok true ↔ M₂.accepts w = .ok true :=
  ⟨h.accepts_map hM₁ halphabet hpos₁, (h.symm halphabet).accepts_map hM₂ halphabet.symm hpos₂⟩

end IsLiveIso

/-! ## Automata all of whose classes are live -/

section AllLive

variable (h₁ : M₁.AllLive) (h₂ : M₂.AllLive)

include h₁ h₂

/-- A bijection that keeps the order of all classes keeps their numbers. -/
theorem val_eq_of_live (f : M₁.LiveClass ≃o M₂.LiveClass) (c : M₁.LiveClass) : (f c).1 = c.1 := by
  induction hn : c.1 using Nat.strong_induction_on generalizing c with
  | _ n ih =>
    subst hn
    rcases Nat.lt_trichotomy (f c).1 c.1 with hlt | heq | hlt
    -- a lower image would be the image of the class with its own number
    · have hlive := h₁ (f c).1 (Nat.lt_trans hlt c.2.1)
      have himage := f.injective (Subtype.ext (ih _ hlt ⟨_, hlive⟩ rfl))
      exact absurd (congrArg Subtype.val himage) (Nat.ne_of_lt hlt)
    · exact heq
    -- and what is mapped to the class's own number would be a lower class
    · have hlive := h₂ c.1 (Nat.lt_trans hlt (f c).2.1)
      have hbelow : (f.symm ⟨c.1, hlive⟩).1 < c.1 := f.symm_apply_lt.mpr hlt
      have himage := ih _ hbelow _ rfl
      rw [f.apply_symm_apply] at himage
      exact absurd himage (Nat.ne_of_gt hbelow)

theorem classCount_le_of_live (f : M₁.LiveClass ≃o M₂.LiveClass) :
    M₁.classCount ≤ M₂.classCount := by
  by_contra hlt
  have hlive := h₁ M₂.classCount (Nat.lt_of_not_le hlt)
  have hval := val_eq_of_live h₁ h₂ f ⟨_, hlive⟩
  exact absurd (hval ▸ (f ⟨_, hlive⟩).2.1) (Nat.lt_irrefl _)

theorem classCount_eq_of_live (f : M₁.LiveClass ≃o M₂.LiveClass) :
    M₁.classCount = M₂.classCount :=
  Nat.le_antisymm (classCount_le_of_live h₁ h₂ f) (classCount_le_of_live h₂ h₁ f.symm)

namespace IsLiveIso

variable {f : M₁.LiveClass ≃o M₂.LiveClass} (h : IsLiveIso f)

include h

theorem query_iff_of_live (hc : c < M₁.classCount) (hd : d < M₁.classCount)
    (ha : a ∈ M₁.alphabet) : M₁.query (.int c) (.text a) = .ok (some d) ↔
      M₂.query (.int c) (.text a) = .ok (some d) := by
  have hiff := h.query_iff ⟨c, h₁ c hc⟩ ⟨d, h₁ d hd⟩ a ha
  rwa [val_eq_of_live h₁ h₂ f, val_eq_of_live h₁ h₂ f] at hiff

/-- Each class lists the same targets in both automata. -/
theorem rows_eq_of_live (hM₁ : M₁.WellFormed) (hM₂ : M₂.WellFormed)
    (halphabet : M₁.alphabet = M₂.alphabet) : M₁.rows = M₂.rows := by
  have hcount := classCount_eq_of_live h₁ h₂ f
  refine hM₁.rows_eq hM₂ halphabet hcount fun c hc a ha => ?_
  obtain ⟨t₁, -, hquery₁, hlt₁⟩ := hM₁.exists_targets hc
  obtain ⟨t₂, -, hquery₂, hlt₂⟩ := hM₂.exists_targets (hcount ▸ hc)
  have ha' : a ∈ M₂.alphabet := halphabet ▸ ha
  rw [hquery₁ a ha, hquery₂ a ha']
  refine congrArg _ (Option.ext fun d => ⟨fun hd => ?_, fun hd => ?_⟩)
  · have hmove := (h.query_iff_of_live h₁ h₂ hc (hlt₁ a d hd) ha).mp (hd ▸ hquery₁ a ha)
    exact Except.ok.inj ((hquery₂ a ha').symm.trans hmove)
  · have hmove := (h.query_iff_of_live h₁ h₂ hc (hcount ▸ hlt₂ a d hd) ha).mpr
      (hd ▸ hquery₂ a ha')
    exact Except.ok.inj ((hquery₁ a ha).symm.trans hmove)

theorem accepting_eq_of_live (hM₁ : M₁.WellFormed) (hM₂ : M₂.WellFormed) :
    M₁.accepting = M₂.accepting := by
  have hiff : ∀ c < M₁.classCount, (c ∈ M₁.accepting ↔ c ∈ M₂.accepting) := by
    intro c hc
    have hiff := h.accepting_iff ⟨c, h₁ c hc⟩
    rwa [val_eq_of_live h₁ h₂ f] at hiff
  refine hM₁.ascending.eq_of_mem_iff hM₂.ascending fun c => ⟨fun hc => ?_, fun hc => ?_⟩
  · exact (hiff c (hM₁.accepting_lt c hc)).mp hc
  · exact (hiff c (classCount_eq_of_live h₁ h₂ f ▸ hM₂.accepting_lt c hc)).mpr hc

end IsLiveIso

end AllLive

end Minimized

namespace Dfa

/-- **The automaton of the classes has a row for each class.** -/
theorem wellFormed_minimize {σ : Type} [Identity σ] (D : Dfa σ) : D.minimize.WellFormed where
  row_eq row hrow := by
    obtain ⟨l, -, rfl⟩ := List.mem_map.mp hrow
    refine ⟨fun a => D.project D.classes (D.target l a), fun a d hd => ?_, rfl⟩
    replace hd : D.project D.classes (D.target l a) = some d := hd
    rw [project_target, keptClass?] at hd
    obtain ⟨hlt, heq⟩ := Option.ite_none_right_eq_some.mp hd
    exact Option.some.inj heq ▸ hlt
  ascending := by
    have hsub : D.minimize.accepting.Sublist ((D.keptLeaders D.classes).zipIdx.map (·.2)) :=
      List.filter_sublist.map _
    rw [List.zipIdx_map_snd] at hsub
    exact (List.pairwise_lt_range' 1).sublist hsub
  accepting_lt c hc := by
    obtain ⟨l, hl, -⟩ := mem_accepting.mp hc
    exact D.classCount_minimize ▸ (List.getElem?_eq_some_iff.mp hl).1

end Dfa

end FiniteAutomata
