import FiniteAutomata.Proofs.Conversion.Language
import FiniteAutomata.Proofs.Json5.Decoding
import FiniteAutomata.Proofs.Layout.Refusal
import FiniteAutomata.Proofs.Text.Utf8
import FiniteAutomata.Source

/-!
# Proofs/Source — why a file holds no automaton

A file that holds no automaton is refused: the error says what is wrong with a configuration or with
the description of one. Four things can go wrong that are no such refusals (`Mishap`): the bytes
are no text, a description in lines has a numeral that is too long, a document is nested too deeply
for the machine at hand, or it has an object whose type holds more states than the machine has room
for. Nothing else can (`Nfa.ofFile_refused`).
-/

namespace FiniteAutomata

variable {m : Machine}

/-! ## Documents -/

theorem Json5.isFault_of_read_eq_error {text : Text} {e : Error} (h : read text = .error e) :
    e.IsFault := by
  unfold read at h
  split at h
  · exact Except.error.inj h ▸ rfl
  · split at h
    · split at h
      · exact nomatch h
      · exact Except.error.inj h ▸ rfl
    · exact Except.error.inj h ▸ rfl

/-- **A text that is not nested too deeply is refused as a description**, unless it spells a
document with an object whose type holds too many states. -/
theorem Nfa.category_of_ofJson5_eq_error {text : Text} (hdeep : m.tooDeep text = false) {e : Error}
    (h : ofJson5 m text = .error e) :
    e.category = .description ∨ ∃ d reason, Json5.read text = .ok d ∧ d.HasCrowdedType m ∧
      reason.IsCrowd ∧ e = .unwritable reason := by
  cases hd : Json5.read text with
  | error cause =>
    have hfault : cause.IsFault := Json5.isFault_of_read_eq_error hd
    have hload : Json5.load text = .error cause := by
      rw [Json5.load, hd]
      rfl
    rw [ofJson5, hdeep, if_neg Bool.false_ne_true, hload] at h
    obtain rfl := Except.error.inj h
    rw [hfault.raised, hfault.inDocument]
    exact .inl rfl
  | ok d =>
    refine (ofJson5_eq_error hdeep hd h).imp_right ?_
    rintro ⟨⟨reason, hcrowd, hreason⟩, htype⟩
    exact ⟨d, reason, rfl, htype, hcrowd, hreason⟩

/-! ## Files -/

/-- **What can go wrong with a file on a machine and is no refusal.** -/
inductive Mishap (m : Machine) (name : Text) (bytes : List UInt8) : Error → Prop
  /-- The bytes are no text. -/
  | undecodable (failure : Utf8.Failure) (h : ¬ bytes.toByteArray.IsValidUTF8) :
    Mishap m name bytes (.undecodable failure)
  /-- A description in lines has a numeral with too many digits. -/
  | longNumeral (text : Text) (d : Layout.Description) (e : Error)
    (hname : holdsDocument name = false) (htext : Text.ofFile bytes = .ok text)
    (hd : text ∈ Layout.Grammar.texts d) (h : Layout.IsLongNumeral d.numerals e) :
    Mishap m name bytes e
  /-- A document is nested too deeply. -/
  | tooDeep (text : Text) (hname : holdsDocument name = true) (htext : Text.ofFile bytes = .ok text)
    (h : m.tooDeep text = true) : Mishap m name bytes .tooDeep
  /-- The type of an object in a document holds an automaton with too many states. -/
  | crowdedType (text : Text) (d : Document) (reason : Unwritable)
    (hname : holdsDocument name = true) (htext : Text.ofFile bytes = .ok text)
    (hd : Json5.read text = .ok d) (h : d.HasCrowdedType m) (hreason : reason.IsCrowd) :
    Mishap m name bytes (.unwritable reason)

variable {name : Text} {bytes : List UInt8} {e : Error}

theorem Mishap.not_isRefusal (h : Mishap m name bytes e) : ¬ e.IsRefusal := by
  cases h with
  | undecodable | tooDeep => exact fun h => h.elim nofun nofun
  | longNumeral text d e _ _ _ hlong =>
    obtain ⟨_, _, _, _, rfl⟩ := hlong
    exact fun h => h.elim nofun nofun
  | crowdedType text d reason _ _ _ _ hreason =>
    obtain rfl | rfl := hreason
    · exact fun h => h.elim nofun nofun
    · exact fun h => h.elim nofun nofun

theorem Nfa.isRefusal_or_mishap (h : ofFile m name bytes = .error e) :
    e.IsRefusal ∨ Mishap m name bytes e := by
  unfold ofFile at h
  cases htext : Text.ofFile bytes with
  | error failure =>
    rw [htext] at h
    obtain rfl := Except.error.inj h
    refine .inr (.undecodable failure fun hvalid => ?_)
    obtain ⟨s, hs⟩ := Text.exists_ofFile_eq_ok_iff.mpr hvalid
    exact nomatch htext.symm.trans hs
  | ok text =>
    rw [htext] at h
    dsimp only at h
    split at h
    · rename_i hname
      cases hdeep : m.tooDeep text with
      | true =>
        rw [ofJson5, if_pos hdeep] at h
        obtain rfl := Except.error.inj h
        exact .inr (.tooDeep text hname htext hdeep)
      | false =>
        refine (category_of_ofJson5_eq_error hdeep h).imp .inr ?_
        rintro ⟨d, reason, hd, htype, hreason, rfl⟩
        exact .crowdedType text d reason hname htext hd htype hreason
    · rename_i hname
      refine (ofLayout_eq_error h).imp_right fun ⟨d, hd, hlong⟩ => ?_
      exact .longNumeral text d e (Bool.eq_false_iff.mpr hname) htext hd hlong

/-- A file fails to be decoded exactly if its bytes are no text. -/
theorem Nfa.exists_undecodable_iff :
    (∃ failure, ofFile m name bytes = .error (.undecodable failure)) ↔
      ¬ bytes.toByteArray.IsValidUTF8 := by
  constructor
  · rintro ⟨failure, h⟩
    cases (isRefusal_or_mishap h).resolve_left fun h => h.elim nofun nofun with
    | undecodable _ hvalid => exact hvalid
    | longNumeral _ _ _ _ _ _ hlong =>
      obtain ⟨_, _, _, _, h⟩ := hlong
      exact nomatch h
  · intro h
    rw [← Text.exists_ofFile_eq_ok_iff] at h
    cases htext : Text.ofFile bytes with
    | error failure => exact ⟨failure, by rw [ofFile, htext]⟩
    | ok text => exact absurd ⟨text, htext⟩ h

/-- A file is nested too deeply exactly if it holds a document that is. -/
theorem Nfa.ofFile_eq_tooDeep_iff :
    ofFile m name bytes = .error .tooDeep ↔ holdsDocument name = true ∧
      ∃ text, Text.ofFile bytes = .ok text ∧ m.tooDeep text = true := by
  constructor
  · intro h
    cases (isRefusal_or_mishap h).resolve_left fun h => h.elim nofun nofun with
    | tooDeep text hname htext hdeep => exact ⟨hname, text, htext, hdeep⟩
    | longNumeral _ _ _ _ _ _ hlong =>
      obtain ⟨_, _, _, _, h⟩ := hlong
      exact nomatch h
  · rintro ⟨hname, text, htext, hdeep⟩
    rw [ofFile, htext]
    exact (if_pos hname).trans (if_pos hdeep)

/-- **Every file holds an automaton whose parts fit or is refused**, and where it is not refused
there is one of four mishaps. Bytes that are no text always are one, and so are a document that is
nested too deeply and a description whose number of states is too long. -/
theorem Nfa.ofFile_refused (m : Machine) (name : Text) (bytes : List UInt8) :
    (∀ N, ofFile m name bytes = .ok N → (Amended.ofNfa N).validate = .ok ()) ∧
    (∀ e, ofFile m name bytes = .error e → (e.IsRefusal ↔ ¬ Mishap m name bytes e)) ∧
    ((∃ failure, ofFile m name bytes = .error (.undecodable failure)) ↔
      ¬ bytes.toByteArray.IsValidUTF8) ∧
    (ofFile m name bytes = .error .tooDeep ↔ holdsDocument name = true ∧
      ∃ text, Text.ofFile bytes = .ok text ∧ m.tooDeep text = true) ∧
    ∀ text d, holdsDocument name = false → Text.ofFile bytes = .ok text →
      text ∈ Layout.Grammar.texts d → Text.numeralLimit < d.declared.length →
        ofFile m name bytes = .error (.layoutNumeral "header" ⟨d.declared.length⟩) := by
  refine ⟨fun N _ => Amended.validate_ofNfa N, fun e he => ?_, exists_undecodable_iff,
    ofFile_eq_tooDeep_iff, fun text d hname htext hd hlong => ?_⟩
  · exact ⟨fun h hmishap => hmishap.not_isRefusal h, (isRefusal_or_mishap he).resolve_right⟩
  · rw [ofFile, htext]
    exact (if_neg (Bool.eq_false_iff.mp hname)).trans (ofLayout_of_long_declared hd hlong)

/-- **A byte that begins no character is a mishap**, on any machine. -/
theorem Nfa.ofFile_stray :
    (∀ m : Machine,
      ofFile m "f.nfa" [0xFF] = .error (.undecodable ⟨0xFF, 0, 1, .invalidStart⟩)) ∧
      ¬ (Error.undecodable ⟨0xFF, 0, 1, .invalidStart⟩).IsRefusal :=
  ⟨fun _ => rfl, fun h => h.elim nofun nofun⟩

end FiniteAutomata
