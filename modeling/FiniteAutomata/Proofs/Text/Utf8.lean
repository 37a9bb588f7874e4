import FiniteAutomata.Proofs.Outcome
import FiniteAutomata.Text.Utf8

/-!
# Proofs/Text/Utf8 — which bytes are the text of a file

A character is encoded as one to four bytes, and these are its only encoding
(`encodes_iff`). A character that has been begun is completed by the bytes that are wanted
(`Pending.Completes`), and those are just the rest of its encoding (`Pending.completes_iff`). So the
characters that bytes spell are those that they are the encoding of (`decode_eq_ok_iff`), and a file
holds a text exactly if its bytes are valid (`Text.exists_ofFile_eq_ok_iff`).
-/

namespace FiniteAutomata

namespace Utf8

/-! ## Encodings -/

/-- The bytes encode the character with this number. -/
def Encodes (v : Nat) : List UInt8 → Prop
  | [a] => v ≤ 0x7F ∧ a.toNat = v
  | [a, b] => 0x7F < v ∧ v ≤ 0x7FF ∧ a.toNat = v / 64 + 0xC0 ∧ b.toNat = v % 64 + 0x80
  | [a, b, c] => 0x7FF < v ∧ v ≤ 0xFFFF ∧ a.toNat = v / 4096 + 0xE0 ∧
      b.toNat = v / 64 % 64 + 0x80 ∧ c.toNat = v % 64 + 0x80
  | [a, b, c, d] => 0xFFFF < v ∧ a.toNat = v / 262144 + 0xF0 ∧
      b.toNat = v / 4096 % 64 + 0x80 ∧ c.toNat = v / 64 % 64 + 0x80 ∧ d.toNat = v % 64 + 0x80
  | _ => False

theorem ofNat_eq_iff {a : UInt8} {n : Nat} (h : n < 256) : UInt8.ofNat n = a ↔ a.toNat = n := by
  rw [← UInt8.toNat_inj, UInt8.toNat_ofNat_of_lt' h, eq_comm]

theorem toNat_valid (c : Char) : c.toNat < 0xD800 ∨ 0xDFFF < c.toNat ∧ c.toNat < 0x110000 := c.valid

/-- **The encoding of a character is its only one.** -/
theorem encodes_iff {c : Char} {bytes : List UInt8} :
    String.utf8EncodeChar c = bytes ↔ Encodes c.toNat bytes := by
  have hvalid := toNat_valid c
  have htoNat : c.val.toNat = c.toNat := rfl
  unfold String.utf8EncodeChar
  rw [htoNat]
  generalize c.toNat = v at *
  obtain _ | ⟨a, _ | ⟨b, _ | ⟨c, _ | ⟨d, _ | ⟨e, bytes⟩⟩⟩⟩⟩ := bytes <;> dsimp only [Encodes]
  all_goals
    split_ifs <;>
      simp (disch := omega) only [List.cons.injEq, reduceCtorEq, and_true, and_false, false_iff,
        ofNat_eq_iff] <;>
      omega

theorem utf8EncodeChar_ofNat {v : Nat} {bytes : List UInt8} (hv : v.isValidChar)
    (h : Encodes v bytes) : String.utf8EncodeChar (Char.ofNat v) = bytes := by
  have htoNat : (Char.ofNat v).toNat = v := by
    rw [Char.ofNat, dif_pos hv]
    rfl
  exact encodes_iff.mpr (htoNat.symm ▸ h)

/-- A byte that is a whole character begins no other. -/
theorem encodes_cons_of_lt {v : Nat} {b : UInt8} {bytes : List UInt8} (hb : b.toNat < 0x80)
    (h : Encodes v (b :: bytes)) : bytes = [] ∧ b.toNat = v := by
  obtain _ | ⟨x, _ | ⟨y, _ | ⟨z, _ | ⟨w, bytes⟩⟩⟩⟩ := bytes <;>
    simp [Encodes] at h <;> simp <;> omega

/-! ## A character that has been begun -/

/-- The character after one more of its bytes. -/
def Pending.next (p : Pending) (b : UInt8) : Pending :=
  ⟨p.first, p.position, p.length + 1, p.owed - 1, 0x80, 0xBF, p.bits * 64 + (b.toNat - 0x80)⟩

/-- **The bytes are those that are wanted**, and complete the character with this number. -/
def Pending.Completes : Pending → List UInt8 → Nat → Prop
  | _, [], _ => False
  | p, b :: bytes, v => (p.low ≤ b.toNat ∧ b.toNat ≤ p.high) ∧
    if p.owed ≤ 1 then bytes = [] ∧ v = p.bits * 64 + (b.toNat - 0x80)
    else (p.next b).Completes bytes v

variable {position v : Nat} {p : Pending} {b : UInt8} {bytes : List UInt8} {c : Char}

theorem Pending.completes_last (h : p.owed ≤ 1) : p.Completes (b :: bytes) v ↔
    (p.low ≤ b.toNat ∧ b.toNat ≤ p.high) ∧ bytes = [] ∧ v = p.bits * 64 + (b.toNat - 0x80) := by
  rw [Completes, if_pos h]

theorem Pending.completes_next (h : ¬ p.owed ≤ 1) : p.Completes (b :: bytes) v ↔
    (p.low ≤ b.toNat ∧ b.toNat ≤ p.high) ∧ (p.next b).Completes bytes v := by
  rw [Completes, if_neg h]

/-- **What completes a character is a byte that is wanted**, and what completes it then. -/
theorem Pending.exists_completes_cons_iff {P : List UInt8 → List UInt8 → Nat → Prop} :
    (∃ tail rest v, tail ++ rest = b :: bytes ∧ p.Completes tail v ∧ P tail rest v) ↔
      (p.low ≤ b.toNat ∧ b.toNat ≤ p.high) ∧
        if p.owed ≤ 1 then P [b] bytes (p.bits * 64 + (b.toNat - 0x80))
        else ∃ tail rest v, tail ++ rest = bytes ∧ (p.next b).Completes tail v ∧
          P (b :: tail) rest v := by
  constructor
  · rintro ⟨_ | ⟨b', tail⟩, rest, v, happend, hcompletes, hP⟩
    · exact hcompletes.elim
    · obtain ⟨rfl, rfl⟩ := List.cons.inj happend
      refine ⟨hcompletes.1, ?_⟩
      split
      · rename_i howed
        obtain ⟨-, htail, hv⟩ := (completes_last howed).mp hcompletes
        subst htail
        exact hv ▸ hP
      · rename_i howed
        exact ⟨tail, rest, v, rfl, ((completes_next howed).mp hcompletes).2, hP⟩
  · rintro ⟨hrange, h⟩
    split at h
    · rename_i howed
      exact ⟨[b], bytes, _, rfl, (completes_last howed).mpr ⟨hrange, rfl, rfl⟩, h⟩
    · rename_i howed
      obtain ⟨tail, rest, v, rfl, hcompletes, hP⟩ := h
      exact ⟨b :: tail, rest, v, rfl, (completes_next howed).mpr ⟨hrange, hcompletes⟩, hP⟩

/-- **What completes a character that a byte begins is the rest of its encoding.** -/
theorem Pending.completes_iff (h : ofFirst? position b = some p) :
    p.Completes bytes v ↔ Encodes v (b :: bytes) ∧ v.isValidChar := by
  unfold ofFirst? at h
  dsimp only at h
  unfold Nat.isValidChar
  split_ifs at h <;> obtain rfl := Option.some.inj h <;>
    obtain _ | ⟨x, _ | ⟨y, _ | ⟨z, _ | ⟨w, bytes⟩⟩⟩⟩ := bytes <;>
      simp [Completes, Encodes, next] <;> omega

theorem not_encodes_of_ofFirst? (h : Pending.ofFirst? position b = none) (hb : ¬ b < 0x80)
    (hv : v.isValidChar) : ¬ Encodes v (b :: bytes) := by
  have hb : 0x80 ≤ b.toNat := UInt8.le_iff_toNat_le.mp (UInt8.not_lt.mp hb)
  unfold Pending.ofFirst? at h
  dsimp only at h
  unfold Nat.isValidChar at hv
  split_ifs at h
  obtain _ | ⟨x, _ | ⟨y, _ | ⟨z, _ | ⟨w, bytes⟩⟩⟩⟩ := bytes <;> simp [Encodes] <;> omega

/-! ## Decoding -/

variable {cs : List Char}

/-- A character that has been begun is completed, and then what is left is decoded. -/
theorem decodeFrom_some_eq_ok_iff : decodeFrom position (some p) bytes = .ok cs ↔
    ∃ tail rest v, tail ++ rest = bytes ∧ p.Completes tail v ∧
      ∃ cs', decodeFrom (position + tail.length) none rest = .ok cs' ∧
        Char.ofNat v :: cs' = cs := by
  induction bytes generalizing position p with
  | nil =>
    refine iff_of_false nofun ?_
    rintro ⟨tail, rest, v, happend, hcompletes, -⟩
    obtain ⟨rfl, -⟩ := List.append_eq_nil_iff.mp happend
    exact hcompletes
  | cons b bytes ih =>
    rw [Pending.exists_completes_cons_iff, decodeFrom]
    dsimp only
    by_cases hrange : p.low ≤ b.toNat ∧ b.toNat ≤ p.high
    · rw [if_pos hrange, and_iff_right hrange]
      by_cases howed : p.owed ≤ 1
      · rw [if_pos howed, if_pos howed, bind_eq_ok]
        exact exists_congr fun _ => and_congr_right fun _ => (Except.ok.injEq _ _).to_iff
      · rw [if_neg howed, if_neg howed]
        refine (ih (p := p.next b)).trans ?_
        simp only [List.length_cons, Nat.add_assoc, Nat.add_comm 1]
    · rw [if_neg hrange]
      exact iff_of_false nofun fun h => hrange h.1

/-- **One character is decoded, and then what is left.** -/
theorem decodeFrom_none_eq_ok_iff : decodeFrom position none (b :: bytes) = .ok cs ↔
    ∃ c tail rest cs', String.utf8EncodeChar c = b :: tail ∧ tail ++ rest = bytes ∧
      decodeFrom (position + 1 + tail.length) none rest = .ok cs' ∧ c :: cs' = cs := by
  rw [decodeFrom]
  split
  · rename_i hb
    have hb : b.toNat < 0x80 := UInt8.lt_iff_toNat_lt.mp hb
    rw [bind_eq_ok]
    constructor
    · rintro ⟨cs', hrest, h⟩
      have hencodes : Encodes b.toNat [b] := ⟨by omega, rfl⟩
      exact ⟨_, [], bytes, cs', utf8EncodeChar_ofNat (.inl (by omega)) hencodes, rfl, hrest,
        Except.ok.inj h⟩
    · rintro ⟨c, tail, rest, cs', hc, rfl, hrest, rfl⟩
      obtain ⟨rfl, hv⟩ := encodes_cons_of_lt hb (encodes_iff.mp hc)
      refine ⟨cs', hrest, ?_⟩
      rw [hv, Char.ofNat_toNat]
      rfl
  · rename_i hb
    split
    · rename_i p hp
      rw [decodeFrom_some_eq_ok_iff]
      constructor
      · rintro ⟨tail, rest, v, happend, hcompletes, cs', hrest, h⟩
        obtain ⟨hencodes, hv⟩ := (Pending.completes_iff hp).mp hcompletes
        exact ⟨_, tail, rest, cs', utf8EncodeChar_ofNat hv hencodes, happend, hrest, h⟩
      · rintro ⟨c, tail, rest, cs', hc, happend, hrest, h⟩
        have hcompletes := (Pending.completes_iff hp).mpr ⟨encodes_iff.mp hc, c.valid⟩
        exact ⟨tail, rest, _, happend, hcompletes, cs', hrest, by rwa [Char.ofNat_toNat]⟩
    · rename_i hnone
      refine iff_of_false nofun ?_
      rintro ⟨c, tail, _, _, hc, -⟩
      exact not_encodes_of_ofFirst? hnone hb c.valid (encodes_iff.mp hc)

theorem decodeFrom_eq_ok_iff :
    decodeFrom position none bytes = .ok cs ↔ cs.flatMap String.utf8EncodeChar = bytes := by
  induction cs generalizing position bytes with
  | nil =>
    cases bytes with
    | nil => exact iff_of_true rfl rfl
    | cons b bytes =>
      refine iff_of_false (fun h => ?_) nofun
      obtain ⟨_, _, _, _, _, _, _, h⟩ := decodeFrom_none_eq_ok_iff.mp h
      exact nomatch h
  | cons c cs ih =>
    cases bytes with
    | nil =>
      refine iff_of_false nofun fun h => ?_
      exact String.utf8EncodeChar_ne_nil (List.append_eq_nil_iff.mp h).1
    | cons b bytes =>
      rw [decodeFrom_none_eq_ok_iff, List.flatMap_cons]
      constructor
      · rintro ⟨_, tail, rest, _, hc, rfl, hrest, h⟩
        obtain ⟨rfl, rfl⟩ := List.cons.inj h
        rw [hc, ih.mp hrest, List.cons_append]
      · intro h
        obtain ⟨a, tail, hc⟩ := List.exists_cons_of_ne_nil (String.utf8EncodeChar_ne_nil (c := c))
        rw [hc] at h
        obtain ⟨rfl, happend⟩ := List.cons.inj h
        exact ⟨c, tail, _, cs, hc, happend, ih.mpr rfl, rfl⟩

/-- **The characters that bytes spell are those that they are the encoding of.** -/
theorem decode_eq_ok_iff :
    decode bytes = .ok cs ↔ cs.flatMap String.utf8EncodeChar = bytes :=
  decodeFrom_eq_ok_iff

end Utf8

/-- **A file holds a text exactly if its bytes are valid UTF-8.** -/
theorem Text.exists_ofFile_eq_ok_iff {bytes : List UInt8} :
    (∃ s, ofFile bytes = .ok s) ↔ bytes.toByteArray.IsValidUTF8 := by
  constructor
  · rintro ⟨s, h⟩
    obtain ⟨cs, hcs, -⟩ := bind_eq_ok.mp h
    exact ⟨cs, by rw [List.utf8Encode, Utf8.decode_eq_ok_iff.mp hcs]⟩
  · rintro ⟨cs, h⟩
    have hcs := Utf8.decode_eq_ok_iff.mpr (List.toByteArray_inj.mp h.symm)
    exact ⟨_, bind_eq_ok.mpr ⟨cs, hcs, rfl⟩⟩

end FiniteAutomata
