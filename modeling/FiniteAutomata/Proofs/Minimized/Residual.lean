import FiniteAutomata.Proofs.Minimized.Live
import FiniteAutomata.Proofs.WordOrder
import Mathlib.Order.Hom.Set

/-!
# Proofs/Minimized/Residual — what the accepted words make of an automaton of classes

From a class those words are accepted that complete some word to an accepted one. If no two classes
accept the same, and classes are numbered in the order of the least words they complete, then the
accepted words alone determine the live classes, their order, and the moves between them: two such
automata have the same live part (`Minimized.IsResidualAutomaton.exists_liveIso`).
-/

namespace FiniteAutomata

namespace Minimized

variable {A : Alphabet} {L : List Symbol → Bool} {M M₁ M₂ M₃ : Minimized Nat} {c d e : Nat}
  {a : Symbol} {v : List Symbol}

/-! ## Classes that accept the same -/

/-- **Two classes, of one automaton or of two, accept the same words.** -/
def SameWords (M₁ M₂ : Minimized Nat) (c d : Nat) : Prop :=
  ∀ w, M₁.acceptsFrom (.int c) w = M₂.acceptsFrom (.int d) w

theorem SameWords.symm (h : SameWords M₁ M₂ c d) : SameWords M₂ M₁ d c := fun w => (h w).symm

theorem SameWords.trans (h : SameWords M₁ M₂ c d) (h' : SameWords M₂ M₃ d e) :
    SameWords M₁ M₃ c e := fun w => (h w).trans (h' w)

theorem SameWords.live (h : SameWords M₁ M₂ c d) (hd : d < M₂.classCount) (hc : M₁.Live c) :
    M₂.Live d := by
  obtain ⟨-, w, hw⟩ := hc
  exact ⟨hd, w, h w ▸ hw⟩

/-- What is accepted after a move is what is accepted from its target. -/
theorem acceptsFrom_cons_of_query (ha : a ∈ M.alphabet)
    (hd : M.query (.int c) (.text a) = .ok (some d)) (w : List Symbol) :
    M.acceptsFrom (.int c) (a :: w) = M.acceptsFrom (.int d) w := by
  rw [acceptsFrom, if_pos ha, hd]
  rfl

/-- **From the class exactly those words are accepted that complete `v` to a word of `L`.** -/
structure IsResidual (M : Minimized Nat) (L : List Symbol → Bool) (v : List Symbol) (c : Nat) :
    Prop where
  lt : c < M.classCount
  acceptsFrom_eq : ∀ w, M.acceptsFrom (.int c) w = .ok (L (v ++ w))

theorem IsResidual.sameWords (hc : M₁.IsResidual L v c) (hd : M₂.IsResidual L v d) :
    SameWords M₁ M₂ c d := fun w => (hc.acceptsFrom_eq w).trans (hd.acceptsFrom_eq w).symm

theorem IsResidual.of_sameWords (hc : M₁.IsResidual L v c) (h : SameWords M₁ M₂ c d)
    (hd : d < M₂.classCount) : M₂.IsResidual L v d :=
  ⟨hd, fun w => (h w).symm.trans (hc.acceptsFrom_eq w)⟩

/-! ## Automata of residuals -/

/-- **The classes are told apart by what they accept**, which is what completes some word, for every
word that can be completed; and before a word that a live class completes there is one that any
earlier class does. -/
structure IsResidualAutomaton (A : Alphabet) (L : List Symbol → Bool) (M : Minimized Nat) :
    Prop where
  wellFormed : M.WellFormed
  alphabet_eq : M.alphabet = A
  start : M.IsResidual L [] 0
  exists_word : ∀ c < M.classCount, ∃ v, (∀ a ∈ v, a ∈ A) ∧ M.IsResidual L v c
  exists_class : ∀ v w, (∀ a ∈ v, a ∈ A) → L (v ++ w) = true → ∃ c, M.IsResidual L v c
  unique : ∀ c d, c < M.classCount → d < M.classCount → SameWords M M c d → c = d
  ordered : ∀ c d v, c < d → M.Live d → (∀ a ∈ v, a ∈ A) → M.IsResidual L v d →
    ∃ u, (∀ a ∈ u, a ∈ A) ∧ A.WordBefore u v ∧ M.IsResidual L u c

namespace IsResidualAutomaton

/-- At most one class accepts what a class of another automaton accepts. -/
theorem eq_of_sameWords (h : M₂.IsResidualAutomaton A L) (hd : d < M₂.classCount)
    (he : e < M₂.classCount) (hcd : SameWords M₁ M₂ c d) (hce : SameWords M₁ M₂ c e) : d = e :=
  h.unique d e hd he (hcd.symm.trans hce)

/-- **Each live class accepts the same as some live class of the other automaton.** -/
theorem exists_sameWords (h₁ : M₁.IsResidualAutomaton A L) (h₂ : M₂.IsResidualAutomaton A L)
    (c : M₁.LiveClass) : ∃ d : M₂.LiveClass, SameWords M₁ M₂ c d := by
  obtain ⟨v, hv, hc⟩ := h₁.exists_word c.1 c.2.1
  obtain ⟨w, hw⟩ := c.2.2
  have haccepts : L (v ++ w) = true := Except.ok.inj ((hc.acceptsFrom_eq w).symm.trans hw)
  obtain ⟨d, hd⟩ := h₂.exists_class v w hv haccepts
  have hsame := hc.sameWords hd
  exact ⟨⟨d, hsame.live hd.lt c.2⟩, hsame⟩

/-- **Two pairs of classes that accept the same do not cross.**  Otherwise each word that the later
class of one automaton completes would come after one that the earlier completes, which is the later
of the other automaton, and so on without end. -/
theorem not_lt_of_lt (h₁ : M₁.IsResidualAutomaton A L) (h₂ : M₂.IsResidualAutomaton A L)
    {c c' : M₁.LiveClass} {d d' : M₂.LiveClass} (hcd : SameWords M₁ M₂ c d)
    (hcd' : SameWords M₁ M₂ c' d') (hc : c < c') : ¬ d' < d := by
  intro hd
  have hnone : ∀ v, (∀ a ∈ v, a ∈ A) → ¬ M₁.IsResidual L v c' ∧ ¬ M₂.IsResidual L v d := by
    intro v
    induction v using A.wordBefore_wf.induction with
    | _ v ih =>
      intro hv
      constructor
      · intro hres
        obtain ⟨u, hu, huv, hres⟩ := h₁.ordered c c' v hc c'.2 hv hres
        exact (ih u huv hu).2 (hres.of_sameWords hcd d.2.1)
      · intro hres
        obtain ⟨u, hu, huv, hres⟩ := h₂.ordered d' d v hd d.2 hv hres
        exact (ih u huv hu).1 (hres.of_sameWords hcd'.symm c'.2.1)
  obtain ⟨v, hv, hres⟩ := h₁.exists_word c'.1 c'.2.1
  exact (hnone v hv).1 hres

/-- A class that accepts the same has its moves to classes that accept the same. -/
theorem query_of_sameWords (h₂ : M₂.IsResidualAutomaton A L) (halphabet : M₁.alphabet = A)
    {d' : M₂.LiveClass} (hcd : SameWords M₁ M₂ c d) (hd : d < M₂.classCount)
    (hcd' : SameWords M₁ M₂ e d') (ha : a ∈ A)
    (he : M₁.query (.int c) (.text a) = .ok (some e)) :
    M₂.query (.int d) (.text a) = .ok (some d'.1) := by
  have hmove := acceptsFrom_cons_of_query (halphabet ▸ ha) he
  obtain ⟨w, hw⟩ := d'.2.2
  have haccepts : M₂.acceptsFrom (.int d) (a :: w) = .ok true := by
    rw [← hcd (a :: w), hmove w, hcd' w, hw]
  obtain ⟨ha', k, hk, -⟩ := acceptsFrom_cons_eq_ok_true.mp haccepts
  have hsame : SameWords M₁ M₂ e k := fun w => by
    rw [← hmove w, hcd (a :: w), acceptsFrom_cons_of_query ha' hk w]
  have hlt := h₂.wellFormed.query_lt hd ha' hk
  rw [hk, h₂.eq_of_sameWords hlt d'.2.1 hsame hcd']

/-! ## The bijection between live classes -/

/-- The live class of the other automaton that accepts the same. -/
noncomputable def counterpart (h₁ : M₁.IsResidualAutomaton A L) (h₂ : M₂.IsResidualAutomaton A L)
    (c : M₁.LiveClass) : M₂.LiveClass := (h₁.exists_sameWords h₂ c).choose

theorem sameWords_counterpart (h₁ : M₁.IsResidualAutomaton A L)
    (h₂ : M₂.IsResidualAutomaton A L) (c : M₁.LiveClass) :
    SameWords M₁ M₂ c (h₁.counterpart h₂ c) := (h₁.exists_sameWords h₂ c).choose_spec

theorem counterpart_eq (h₁ : M₁.IsResidualAutomaton A L) (h₂ : M₂.IsResidualAutomaton A L)
    {c : M₁.LiveClass} {d : M₂.LiveClass} (h : SameWords M₁ M₂ c d) : h₁.counterpart h₂ c = d :=
  Subtype.ext (h₂.eq_of_sameWords (h₁.counterpart h₂ c).2.1 d.2.1
    (h₁.sameWords_counterpart h₂ c) h)

theorem strictMono_counterpart (h₁ : M₁.IsResidualAutomaton A L)
    (h₂ : M₂.IsResidualAutomaton A L) : StrictMono (h₁.counterpart h₂) := by
  intro c c' hc
  have hsame := h₁.sameWords_counterpart h₂ c
  have hsame' := h₁.sameWords_counterpart h₂ c'
  rcases lt_trichotomy (h₁.counterpart h₂ c) (h₁.counterpart h₂ c') with hlt | heq | hlt
  · exact hlt
  · have hcc' := h₁.unique c c' c.2.1 c'.2.1 ((heq ▸ hsame).trans hsame'.symm)
    exact absurd (Subtype.ext hcc') (ne_of_lt hc)
  · exact absurd hlt (h₁.not_lt_of_lt h₂ hsame hsame' hc)

theorem surjective_counterpart (h₁ : M₁.IsResidualAutomaton A L)
    (h₂ : M₂.IsResidualAutomaton A L) : Function.Surjective (h₁.counterpart h₂) := fun d =>
  ⟨h₂.counterpart h₁ d, h₁.counterpart_eq h₂ (h₂.sameWords_counterpart h₁ d).symm⟩

/-- **The accepted words determine the live classes**, their order, and what they do. -/
theorem exists_liveIso (h₁ : M₁.IsResidualAutomaton A L) (h₂ : M₂.IsResidualAutomaton A L) :
    ∃ f : M₁.LiveClass ≃o M₂.LiveClass, IsLiveIso f := by
  have hsame := h₁.sameWords_counterpart h₂
  refine ⟨(h₁.strictMono_counterpart h₂).orderIsoOfSurjective _ (h₁.surjective_counterpart h₂),
    fun c d a ha => ?_, fun c => ?_, ?_, fun hlive => ?_⟩
  · have ha : a ∈ A := h₁.alphabet_eq ▸ ha
    exact ⟨h₂.query_of_sameWords h₁.alphabet_eq (hsame c) (h₁.counterpart h₂ c).2.1 (hsame d) ha,
      h₁.query_of_sameWords h₂.alphabet_eq (hsame c).symm c.2.1 (hsame d).symm ha⟩
  · rw [← acceptsFrom_nil_eq_ok_true, hsame c []]
    exact acceptsFrom_nil_eq_ok_true
  · have hstart := h₁.start.sameWords h₂.start
    exact ⟨hstart.live h₂.start.lt, hstart.symm.live h₁.start.lt⟩
  · exact h₂.eq_of_sameWords (h₁.counterpart h₂ _).2.1 h₂.start.lt (hsame ⟨0, hlive⟩)
      (h₁.start.sameWords h₂.start)

end IsResidualAutomaton

end Minimized

/-- No two classes of a minimized automaton accept the same. -/
theorem Dfa.eq_of_sameWords {σ : Type} [Identity σ] {D : Dfa σ} {c d : Nat}
    (hc : c < D.minimize.classCount) (hd : d < D.minimize.classCount)
    (hsame : Minimized.SameWords D.minimize D.minimize c d) : c = d := by
  obtain ⟨i, hi, rfl⟩ := lt_classCount_iff.mp hc
  obtain ⟨j, hj, rfl⟩ := lt_classCount_iff.mp hd
  refine (classOf_eq_iff (Nat.le_of_lt hi) (Nat.le_of_lt hj)).mpr fun w => ?_
  have hw := hsame w
  rw [acceptsFrom_classOf (Nat.le_of_lt hi) hc, acceptsFrom_classOf (Nat.le_of_lt hj) hd] at hw
  exact Except.ok.inj hw

end FiniteAutomata
