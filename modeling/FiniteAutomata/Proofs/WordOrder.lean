import FiniteAutomata.Alphabet
import Mathlib.Data.List.Nodup
import Mathlib.Data.List.Shortlex

/-!
# Proofs/WordOrder — words ordered by length, then by the alphabet

A symbol comes before another if the alphabet lists it earlier, and a word before another if it is
shorter, or as long and before it at the first difference. There is no endless descent
(`Alphabet.wordBefore_wf`), and what is put at the end of two words decides only between words that
are equal so far. Any two words over the alphabet are ordered (`Alphabet.wordBefore_trichotomy`), so
of the words with a property one is the first (`Alphabet.existsUnique_isFirst`).
-/

namespace FiniteAutomata

namespace Alphabet

variable {A : Alphabet}

/-- The alphabet lists the first symbol earlier. -/
def Before (A : Alphabet) (a b : Symbol) : Prop := A.symbols.idxOf a < A.symbols.idxOf b

/-- **The first word is shorter, or as long and earlier at the first difference.** -/
def WordBefore (A : Alphabet) : List Symbol → List Symbol → Prop := List.Shortlex A.Before

theorem before_wf (A : Alphabet) : WellFounded A.Before :=
  InvImage.wf A.symbols.idxOf Nat.lt_wfRel.wf

theorem wordBefore_wf (A : Alphabet) : WellFounded A.WordBefore := List.Shortlex.wf A.before_wf

/-- What stands before a place in the alphabet comes before what stands there. -/
theorem before_of_append {done rest : List Symbol} {a b : Symbol}
    (h : A.symbols = done ++ a :: rest) (hb : b ∈ done) : A.Before b a := by
  have ha : a ∉ done := fun ha =>
    List.disjoint_of_nodup_append (h ▸ A.nodup) ha List.mem_cons_self
  have hlt : done.idxOf b < done.length := List.idxOf_lt_length_iff.mpr hb
  rw [Before, h, List.idxOf_append_of_mem hb, List.idxOf_append_of_notMem ha, List.idxOf_cons_self]
  exact hlt

/-! ## Any two words over the alphabet are ordered -/

theorem Before.trans {a b c : Symbol} (h : A.Before a b) (h' : A.Before b c) : A.Before a c :=
  Nat.lt_trans h h'

theorem WordBefore.trans {u v w : List Symbol} (h : A.WordBefore u v) (h' : A.WordBefore v w) :
    A.WordBefore u w := by
  obtain hlt | ⟨hlen, hlex⟩ := List.shortlex_def.mp h <;>
    obtain hlt' | ⟨hlen', hlex'⟩ := List.shortlex_def.mp h'
  · exact .of_length_lt (hlt.trans hlt')
  · exact .of_length_lt (hlt.trans_eq hlen')
  · exact .of_length_lt (hlen.trans_lt hlt')
  · exact .of_lex (hlen.trans hlen') (List.lex_trans Before.trans hlex hlex')

theorem WordBefore.asymm {v w : List Symbol} (h : A.WordBefore v w) : ¬ A.WordBefore w v :=
  A.wordBefore_wf.asymmetric v w h

theorem WordBefore.irrefl (w : List Symbol) : ¬ A.WordBefore w w := fun h => h.asymm h

/-- Words of one length are equal or differ first at symbols of which one comes before the other. -/
theorem lex_trichotomy {v w : List Symbol} (hv : ∀ a ∈ v, a ∈ A) (hlen : v.length = w.length) :
    List.Lex A.Before v w ∨ v = w ∨ List.Lex A.Before w v := by
  induction v generalizing w with
  | nil => exact .inr (.inl (List.length_eq_zero_iff.mp hlen.symm).symm)
  | cons a v ih =>
    obtain ⟨b, w, rfl⟩ := List.exists_of_length_succ w hlen.symm
    obtain ⟨ha, hv⟩ := List.forall_mem_cons.mp hv
    rcases Nat.lt_trichotomy (A.symbols.idxOf a) (A.symbols.idxOf b) with hlt | heq | hlt
    · exact .inl (.rel hlt)
    · obtain rfl : a = b := (List.idxOf_inj ha).mp heq
      rcases ih hv (Nat.succ.inj hlen) with hlex | rfl | hlex
      · exact .inl (.cons hlex)
      · exact .inr (.inl rfl)
      · exact .inr (.inr (.cons hlex))
    · exact .inr (.inr (.rel hlt))

/-- **Of two words one comes before the other, or they are equal**, if the first is over the
alphabet: all symbols that are not listed share one place, after the others. -/
theorem wordBefore_trichotomy {v w : List Symbol} (hv : ∀ a ∈ v, a ∈ A) :
    A.WordBefore v w ∨ v = w ∨ A.WordBefore w v := by
  rcases Nat.lt_trichotomy v.length w.length with hlt | hlen | hlt
  · exact .inl (.of_length_lt hlt)
  · exact (lex_trichotomy hv hlen).imp (.of_lex hlen) (.imp_right (.of_lex hlen.symm))
  · exact .inr (.inr (.of_length_lt hlt))

/-! ## The first of the words with a property -/

/-- **The word is the first of those with the property**: each other comes after it. -/
structure IsFirst (A : Alphabet) (P : List Symbol → Prop) (w : List Symbol) : Prop where
  holds : P w
  eq_or_before : ∀ v, P v → v = w ∨ A.WordBefore w v

theorem IsFirst.unique {P : List Symbol → Prop} {v w : List Symbol} (hv : A.IsFirst P v)
    (hw : A.IsFirst P w) : v = w := by
  rcases hw.eq_or_before v hv.holds with heq | hwv
  · exact heq
  · exact ((hv.eq_or_before w hw.holds).resolve_right hwv.asymm).symm

/-- **If some word over the alphabet has a property, exactly one is the first that has it.** -/
theorem existsUnique_isFirst {P : List Symbol → Prop} (hP : ∀ w, P w → ∀ a ∈ w, a ∈ A)
    {w : List Symbol} (hw : P w) : ∃! v, A.IsFirst P v := by
  obtain ⟨v, hv, hmin⟩ := A.wordBefore_wf.has_min { u | P u } ⟨w, hw⟩
  have hfirst : A.IsFirst P v := ⟨hv, fun u hu => by
    rcases wordBefore_trichotomy (hP u hu) with huv | heq | hvu
    · exact absurd huv (hmin u hu)
    · exact .inl heq
    · exact .inr hvu⟩
  exact ⟨v, hfirst, fun u hu => hu.unique hfirst⟩

/-! ## Words with one more symbol -/

theorem nil_wordBefore_concat (w : List Symbol) (a : Symbol) : A.WordBefore [] (w ++ [a]) :=
  .of_length_lt (by simp)

theorem lex_append_of_length_eq {v w : List Symbol} (hlen : v.length = w.length)
    (h : List.Lex A.Before v w) (x y : List Symbol) : List.Lex A.Before (v ++ x) (w ++ y) := by
  induction h with
  | nil => simp at hlen
  | cons _ ih => exact .cons (ih (by simpa using hlen))
  | rel hab => exact .rel hab

/-- Words that differ stay in order whatever symbols are put at their ends. -/
theorem WordBefore.concat {v w : List Symbol} (h : A.WordBefore v w) (a b : Symbol) :
    A.WordBefore (v ++ [a]) (w ++ [b]) := by
  rcases List.shortlex_def.mp h with hlt | ⟨hlen, hlex⟩
  · exact .of_length_lt (by simpa using hlt)
  · exact .of_lex (by simpa using hlen) (lex_append_of_length_eq hlen hlex [a] [b])

/-- Words that are equal up to their last symbols are ordered by these. -/
theorem Before.concat {a b : Symbol} (h : A.Before a b) (w : List Symbol) :
    A.WordBefore (w ++ [a]) (w ++ [b]) :=
  List.Shortlex.append_left ((List.shortlex_singleton_iff a b).mpr h) w

end Alphabet

end FiniteAutomata
