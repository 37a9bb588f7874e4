import FiniteAutomata.Conversion
import FiniteAutomata.Proofs.Minimized.Quotient
import FiniteAutomata.Proofs.Subset.Order

/-!
# Proofs/Conversion/Language — a conversion keeps the accepted words

An automaton as it was built passes its checks once more (`Amended.validate_ofNfa`), its subset
construction succeeds when there is no limit, and minimization always does. Each of the three
automata is then an accurate stand-in for the others (`Nfa.convert_accepts`).
-/

namespace FiniteAutomata

/-- Checks that all succeed succeed one after another. -/
theorem forM_eq_ok {α : Type} {f : α → Except Error Unit} {l : List α}
    (h : ∀ x ∈ l, f x = .ok ()) : l.forM f = .ok () := by
  induction l with
  | nil => rfl
  | cons x l ih =>
    obtain ⟨hx, hl⟩ := List.forall_mem_cons.mp h
    change (f x >>= fun _ => l.forM f) = _
    rw [hx]
    exact ih hl

/-- A transition that fits passes the check. -/
theorem Transition.fit_of_fits {n : Nat} {A : Alphabet} {t : Transition} (h : t.Fits n A) :
    ∃ hfits, t.fit n A = .ok ⟨t, hfits⟩ := by
  have hnone : t.inputs.find? (fun a => decide (a ∉ A)) = none :=
    List.find?_eq_none.mpr fun a ha => by simpa using h.inputs_mem a ha
  refine ⟨h, ?_⟩
  rw [fit, dif_pos h.source_inRange, dif_pos h.target_inRange]
  split
  next => rfl
  next a ha => nomatch hnone.symm.trans ha

/-- **An automaton as it was built passes its checks.** -/
theorem Amended.validate_ofNfa (N : Nfa) : (ofNfa N).validate = .ok () := by
  refine forM_eq_ok fun t ht => ?_
  have hmem : t ∈ N.transitions := by simpa [transitions, ofNfa] using ht
  obtain ⟨hfits, hok⟩ := Transition.fit_of_fits (N.transitions_fit t hmem)
  change (t.fit N.stateCount N.alphabet >>= fun _ => .ok ()) = _
  rw [hok]
  rfl

namespace Nfa

/-- **Without a limit a conversion succeeds.** -/
theorem exists_convert (N : Nfa) : ∃ D, N.IsSubsetAutomaton D ∧
    (Amended.ofNfa N).convert .null = .ok ⟨D, D.minimize⟩ := by
  obtain ⟨D, hD, h⟩ := N.exists_toDfa
  refine ⟨D, h, ?_⟩
  rw [Amended.convert, Amended.validate_ofNfa]
  change (N.toDfa .null >>= fun D => .ok (Conversion.mk D D.minimize)) = _
  rw [hD]
  rfl

/-- **The automaton, its deterministic form and its minimized form accept the same words**, whatever
symbols these consist of. -/
theorem convert_accepts (N : Nfa) : ∃ c, (Amended.ofNfa N).convert .null = .ok c ∧
    ∀ w, c.dfa.accepts w = N.accepts w ∧ c.minimized.accepts w = .ok (N.accepts w) := by
  obtain ⟨D, h, hconvert⟩ := N.exists_convert
  refine ⟨_, hconvert, fun w => ⟨h.accepts_eq w, ?_⟩⟩
  rw [D.accepts_minimize, h.accepts_eq]

end Nfa

end FiniteAutomata
