import FiniteAutomata.Proofs.Document.Parts
import FiniteAutomata.Proofs.Json5.Scalar

/-!
# Proofs/Json5/Writing — what was written is read again

A value comes back by its structure (`comesBack`): an array or an object is read as its members come
back one after the other. So a value without floating-point numbers and without integers that are
too long is written, and what is read is the value as a document, with the halves of surrogate pairs
joined wherever they meet in a text (`read_write`).
-/

namespace FiniteAutomata

namespace Json5

variable {s t rest : Text}

/-! ## Values -/

/-- **The value can be written and read again**: it is made of texts, truth values and integers that
are not too long. -/
inductive Storable : Value → Prop
  | null : Storable .null
  | bool (b : Bool) : Storable (.bool b)
  | int {n : Int} (h : isLongInteger n = false) : Storable (.int n)
  | text (x : Text) : Storable (.text x)
  | list {vs : List Value} (h : ∀ v ∈ vs, Storable v) : Storable (.list vs)
  | object {fs : List (Text × Value)} (h : ∀ f ∈ fs, Storable f.2) : Storable (.object fs)

theorem storable_text {x : Text} : Storable (.text x) ↔ True := iff_of_true (.text x) trivial

theorem storable_int {n : Int} : Storable (.int n) ↔ isLongInteger n = false :=
  ⟨fun h => by cases h; assumption, .int⟩

theorem storable_list {vs : List Value} : Storable (.list vs) ↔ ∀ v ∈ vs, Storable v :=
  ⟨fun h => by cases h; assumption, .list⟩

theorem storable_object {fs : List (Text × Value)} :
    Storable (.object fs) ↔ ∀ f ∈ fs, Storable f.2 :=
  ⟨fun h => by cases h; assumption, .object⟩

mutual

/-- **The value that is read once this one was written**: in its texts the halves of pairs that meet
are joined. -/
def respelled : Value → Value
  | .text x => .text x.rejoined
  | .list vs => .list (respelledAll vs)
  | .object fs => .object (respelledFields fs)
  | v => v

/-- The values that are read once these were written. -/
def respelledAll : List Value → List Value
  | [] => []
  | v :: vs => respelled v :: respelledAll vs

/-- The fields that are read once these were written. -/
def respelledFields : List (Text × Value) → List (Text × Value)
  | [] => []
  | (key, v) :: fs => (key.rejoined, respelled v) :: respelledFields fs

end

theorem respelledAll_eq_map (vs : List Value) : respelledAll vs = vs.map respelled := by
  induction vs with
  | nil => rfl
  | cons v vs ih => rw [respelledAll, ih, List.map_cons]

theorem respelledFields_eq_map (fs : List (Text × Value)) :
    respelledFields fs = fs.map fun f => (f.1.rejoined, respelled f.2) := by
  induction fs with
  | nil => rfl
  | cons f fs ih => rw [respelledFields, ih, List.map_cons]

theorem Storable.respelled {v : Value} (h : Storable v) : Storable (respelled v) := by
  induction h with
  | null => exact .null
  | bool b => exact .bool b
  | int h => exact .int h
  | text x => exact .text _
  | list _ ih =>
    rw [Json5.respelled, respelledAll_eq_map]
    exact .list (List.forall_mem_map.mpr ih)
  | object _ ih =>
    rw [Json5.respelled, respelledFields_eq_map]
    exact .object (List.forall_mem_map.mpr ih)

/-! ## Tokens -/

/-- A token begins here that ends no array and no object. -/
def StartsToken (s : Text) : Prop :=
  ∃ c t, s = c :: t ∧ isSpace c = false ∧ c ≠ '/' ∧ c ≠ ']' ∧ c ≠ '}'

theorem StartsToken.append (h : StartsToken s) : StartsToken (s ++ t) := by
  obtain ⟨c, s', rfl, hc⟩ := h
  exact ⟨c, s' ++ t, rfl, hc⟩

theorem skip_cons {c : CodePoint} (hc : isSpace c = false) (hslash : c ≠ '/') :
    skip (c :: s) = some (c :: s) := by
  unfold skip skipFrom
  split <;> simp_all

theorem StartsToken.skip_eq (h : StartsToken s) : skip s = some s := by
  obtain ⟨c, t, rfl, hc, hslash, _⟩ := h
  exact skip_cons hc hslash

/-- What begins with no bracket, brace or quote is a scalar. -/
theorem valueWithin_scalar {c : CodePoint} (hc : isSpace c = false)
    (hne : c ≠ '/' ∧ c ≠ '[' ∧ c ≠ '{' ∧ c ≠ '"' ∧ c ≠ '\'') (k : Nat) :
    valueWithin (k + 1) (c :: s) = scalar (c :: s) := by
  rw [valueWithin, skip_cons hc hne.1]
  simp only [Option.bind_eq_bind, Option.bind_some]
  split <;> simp_all

theorem valueWithin_blank (k : Nat) : valueWithin k (' ' :: s) = valueWithin k s := by
  cases k <;> rfl

theorem itemsWithin_blank (k : Nat) : itemsWithin k (' ' :: s) = itemsWithin k s := by
  cases k <;> rfl

theorem entriesWithin_blank (k : Nat) : entriesWithin k (' ' :: s) = entriesWithin k s := by
  cases k <;> rfl

section

variable {k : Nat} {d : Document}

theorem itemsWithin_last (hs : StartsToken s) (hv : valueWithin k s = some (d, .char ']' :: rest)) :
    itemsWithin (k + 1) s = some ([d], rest) := by
  rw [itemsWithin, hs.skip_eq]
  obtain ⟨c, t, rfl, -, -, hc, -⟩ := hs
  simp [hc, hv, skip_cons (c := .char ']') (by decide) (by decide)]

theorem itemsWithin_more (hs : StartsToken s) (hv : valueWithin k s = some (d, .char ',' :: t))
    {ds : List Document} (ht : itemsWithin k t = some (ds, rest)) :
    itemsWithin (k + 1) s = some (d :: ds, rest) := by
  rw [itemsWithin, hs.skip_eq]
  obtain ⟨c, t, rfl, -, -, hc, -⟩ := hs
  simp [hc, hv, ht, skip_cons (c := .char ',') (by decide) (by decide)]

/-- A key that was written comes back. -/
theorem key_writtenText (x : Text) : key (writtenText x ++ t) = some (x.rejoined, t) := by
  have h := quotedText_writtenText x t
  rwa [← List.singleton_append, ← List.append_assoc] at h

theorem startsToken_writtenText (x : Text) : StartsToken (writtenText x) :=
  ⟨'"', _, rfl, by decide⟩

theorem entriesWithin_last (x : Text) (hv : valueWithin k s = some (d, .char '}' :: rest)) :
    entriesWithin (k + 1) (writtenText x ++ .char ':' :: .char ' ' :: s) =
      some ([(x.rejoined, d)], rest) := by
  have hkey := key_writtenText x (t := .char ':' :: .char ' ' :: s)
  rw [entriesWithin, (startsToken_writtenText x).append.skip_eq]
  obtain ⟨c, t, heq, -, -, -, hc⟩ :=
    (startsToken_writtenText x).append (t := .char ':' :: .char ' ' :: s)
  rw [heq] at hkey ⊢
  simp [hc, hkey, skip_cons (c := .char ':') (by decide) (by decide), valueWithin_blank, hv,
    skip_cons (c := .char '}') (by decide) (by decide)]

theorem entriesWithin_more (x : Text) (hv : valueWithin k s = some (d, .char ',' :: t))
    {es : List (Text × Document)} (ht : entriesWithin k t = some (es, rest)) :
    entriesWithin (k + 1) (writtenText x ++ .char ':' :: .char ' ' :: s) =
      some ((x.rejoined, d) :: es, rest) := by
  have hkey := key_writtenText x (t := .char ':' :: .char ' ' :: s)
  rw [entriesWithin, (startsToken_writtenText x).append.skip_eq]
  obtain ⟨c, t, heq, -, -, -, hc⟩ :=
    (startsToken_writtenText x).append (t := .char ':' :: .char ' ' :: s)
  rw [heq] at hkey ⊢
  simp [hc, hkey, skip_cons (c := .char ':') (by decide) (by decide), valueWithin_blank, hv, ht,
    skip_cons (c := .char ',') (by decide) (by decide)]

end

theorem startsToken_written {v : Value} (h : Storable v) : StartsToken (written v) := by
  cases h with
  | null => exact ⟨'n', _, rfl, by decide⟩
  | bool b => cases b <;> exact ⟨_, _, rfl, by decide⟩
  | @int n h =>
    obtain ⟨c, t, hct, hc⟩ := exists_writtenInteger n
    have hall : ∀ c ∈ integerStarts, isSpace c = false ∧ c ≠ '/' ∧ c ≠ ']' ∧ c ≠ '}' :=
      List.forall_iff_forall_mem.mp (by decide)
    exact ⟨c, t, hct, hall c hc⟩
  | text x => exact startsToken_writtenText x
  | list h => exact ⟨'[', _, rfl, by decide⟩
  | object h => exact ⟨'{', _, rfl, by decide⟩

/-- The value comes back, whatever may follow it. -/
def ComesBack (v : Value) : Prop := ∀ rest, Stops rest → ∀ k, (written v).length ≤ k →
  valueWithin k (written v ++ rest) = some (.ofValue (respelled v), rest)

theorem stops_cons {c : CodePoint} (hc : c = ',' ∨ c = ']' ∨ c = '}') : Stops (c :: s) :=
  fun _ h => Option.some.inj h ▸ hc

theorem written_text (x : Text) :
    written (.text x) = .char '"' :: (x.flatMap writtenChar ++ [.char '"']) :=
  rfl

theorem written_list (vs : List Value) :
    written (.list vs) = .char '[' :: (joined (writtenAll vs) ++ [.char ']']) :=
  rfl

theorem written_object (fs : List (Text × Value)) :
    written (.object fs) = .char '{' :: (joined (writtenFields fs) ++ [.char '}']) :=
  rfl

theorem writtenFields_cons (f : Text × Value) (fs : List (Text × Value)) :
    writtenFields (f :: fs) =
      (writtenText f.1 ++ .char ':' :: .char ' ' :: written f.2) :: writtenFields fs := by
  rw [writtenFields, List.append_assoc]
  rfl

theorem joined_singleton (x : Text) : joined [x] = x := List.intercalate_singleton

theorem joined_cons {x : Text} {pieces : List Text} (h : pieces ≠ []) :
    joined (x :: pieces) = x ++ .char ',' :: .char ' ' :: joined pieces := by
  rw [joined, List.intercalate_cons_of_ne_nil h, List.append_assoc]
  rfl

theorem itemsWithin_written {vs : List Value} (hstart : ∀ v ∈ vs, StartsToken (written v))
    (h : ∀ v ∈ vs, ComesBack v) (rest : Text) {k : Nat}
    (hk : (joined (writtenAll vs)).length < k) :
    itemsWithin k (joined (writtenAll vs) ++ .char ']' :: rest) =
      some (Document.ofValues (respelledAll vs), rest) := by
  induction vs generalizing k with
  | nil =>
    obtain ⟨k, rfl⟩ := Nat.exists_eq_add_one_of_ne_zero (Nat.ne_zero_of_lt hk)
    rfl
  | cons v vs ih =>
    obtain ⟨hvstart, hstart⟩ := List.forall_mem_cons.mp hstart
    obtain ⟨hv, h⟩ := List.forall_mem_cons.mp h
    obtain ⟨k, rfl⟩ := Nat.exists_eq_add_one_of_ne_zero (Nat.ne_zero_of_lt hk)
    cases vs with
    | nil =>
      rw [writtenAll, writtenAll, joined_singleton] at hk ⊢
      exact itemsWithin_last hvstart.append (hv _ (stops_cons (by decide)) k (by omega))
    | cons w ws =>
      have ih := ih hstart h (k := k)
      have hne : writtenAll (w :: ws) ≠ [] := List.cons_ne_nil _ _
      rw [writtenAll, joined_cons hne] at hk ⊢
      simp only [List.length_append, List.length_cons] at hk
      rw [List.append_assoc]
      refine itemsWithin_more hvstart.append (hv _ (stops_cons (by decide)) k (by omega)) ?_
      exact (itemsWithin_blank k).trans (ih (by omega))

theorem entriesWithin_written {fs : List (Text × Value)} (h : ∀ f ∈ fs, ComesBack f.2)
    (rest : Text) {k : Nat} (hk : (joined (writtenFields fs)).length < k) :
    entriesWithin k (joined (writtenFields fs) ++ .char '}' :: rest) =
      some (Document.ofFields (respelledFields fs), rest) := by
  induction fs generalizing k with
  | nil =>
    obtain ⟨k, rfl⟩ := Nat.exists_eq_add_one_of_ne_zero (Nat.ne_zero_of_lt hk)
    rfl
  | cons f fs ih =>
    obtain ⟨hf, h⟩ := List.forall_mem_cons.mp h
    obtain ⟨k, rfl⟩ := Nat.exists_eq_add_one_of_ne_zero (Nat.ne_zero_of_lt hk)
    cases fs with
    | nil =>
      rw [writtenFields_cons, writtenFields, joined_singleton] at hk ⊢
      simp only [List.length_append, List.length_cons] at hk
      rw [List.append_assoc]
      exact entriesWithin_last f.1 (hf _ (stops_cons (by decide)) k (by omega))
    | cons g gs =>
      have ih := ih h (k := k)
      have hne : writtenFields (g :: gs) ≠ [] := List.cons_ne_nil _ _
      rw [writtenFields_cons, joined_cons hne] at hk ⊢
      simp only [List.length_append, List.length_cons] at hk
      rw [List.append_assoc, List.append_assoc]
      refine entriesWithin_more f.1 (hf _ (stops_cons (by decide)) k (by omega)) ?_
      exact (entriesWithin_blank k).trans (ih (by omega))

/-- A scalar comes back if it is read as one. -/
theorem comesBack_of_scalar {v : Value} {c : CodePoint} {t : Text} (hv : written v = c :: t)
    (hc : isSpace c = false) (hne : c ≠ '/' ∧ c ≠ '[' ∧ c ≠ '{' ∧ c ≠ '"' ∧ c ≠ '\'')
    (h : ∀ rest, Stops rest → scalar (written v ++ rest) = some (.ofValue (respelled v), rest)) :
    ComesBack v := by
  intro rest hrest k hk
  rw [hv] at hk
  obtain ⟨k, rfl⟩ := Nat.exists_eq_add_one_of_ne_zero (Nat.ne_zero_of_lt hk)
  have h := h rest hrest
  rw [hv, List.cons_append] at h ⊢
  rw [valueWithin_scalar hc hne, h]

theorem comesBack_int {n : Int} (h : isLongInteger n = false) : ComesBack (.int n) := by
  obtain ⟨c, t, hct, hc⟩ := exists_writtenInteger n
  have hall : ∀ c ∈ integerStarts, isSpace c = false ∧
      (c ≠ '/' ∧ c ≠ '[' ∧ c ≠ '{' ∧ c ≠ '"' ∧ c ≠ '\'') ∧ 'n' ≠ c ∧ 't' ≠ c ∧ 'f' ≠ c :=
    List.forall_iff_forall_mem.mp (by decide)
  obtain ⟨hspace, hne, hn, ht, hf⟩ := hall c hc
  refine comesBack_of_scalar hct hspace hne fun rest hrest => ?_
  have hnumber := number_writtenInteger h hrest
  change scalar (writtenInteger n ++ rest) = _
  rw [hct, List.cons_append] at hnumber ⊢
  have hnull : dropWord? ("null" : Text) (c :: (t ++ rest)) = none := if_neg hn
  have htrue : dropWord? ("true" : Text) (c :: (t ++ rest)) = none := if_neg ht
  have hfalse : dropWord? ("false" : Text) (c :: (t ++ rest)) = none := if_neg hf
  simp [scalar, constants, hnull, htrue, hfalse, hnumber, respelled, Document.ofValue]

theorem comesBack_text (x : Text) : ComesBack (.text x) := by
  intro rest _ k hk
  have hquoted := quotedText_writtenText x rest
  simp only [written_text, List.cons_append, List.append_assoc, List.nil_append,
    List.length_cons] at hk ⊢
  obtain ⟨k, rfl⟩ := Nat.exists_eq_add_one_of_ne_zero (Nat.ne_zero_of_lt hk)
  rw [valueWithin, skip_cons (by decide) (by decide)]
  simp only [Option.bind_eq_bind, Option.bind_some, hquoted]
  rfl

/-- **A value that was written comes back as a document.** -/
theorem comesBack {v : Value} (h : Storable v) : ComesBack v := by
  induction h with
  | null => exact comesBack_of_scalar rfl (by decide) (by decide) fun rest _ => rfl
  | bool b =>
    cases b with
    | false => exact comesBack_of_scalar rfl (by decide) (by decide) fun rest _ => rfl
    | true => exact comesBack_of_scalar rfl (by decide) (by decide) fun rest _ => rfl
  | @int n h => exact comesBack_int h
  | text x => exact comesBack_text x
  | @list vs h ih =>
    intro rest _ k hk
    have hitems := fun k => itemsWithin_written (fun v hv => startsToken_written (h v hv)) ih rest
      (k := k)
    simp only [written_list, List.cons_append, List.append_assoc, List.nil_append, List.length_cons,
      List.length_append, List.length_nil] at hk ⊢
    obtain ⟨k, rfl⟩ := Nat.exists_eq_add_one_of_ne_zero (Nat.ne_zero_of_lt hk)
    rw [valueWithin, skip_cons (by decide) (by decide)]
    simp only [Option.bind_eq_bind, Option.bind_some, hitems k (by omega)]
    rfl
  | @object fs h ih =>
    intro rest _ k hk
    have hentries := fun k => entriesWithin_written ih rest (k := k)
    simp only [written_object, List.cons_append, List.append_assoc, List.nil_append,
      List.length_cons, List.length_append, List.length_nil] at hk ⊢
    obtain ⟨k, rfl⟩ := Nat.exists_eq_add_one_of_ne_zero (Nat.ne_zero_of_lt hk)
    rw [valueWithin, skip_cons (by decide) (by decide)]
    simp only [Option.bind_eq_bind, Option.bind_some, hentries k (by omega)]
    rfl

/-! ## Whole texts -/

theorem firstUnserializable?_eq_none {vs : List Value} (h : ∀ v ∈ vs, unserializable? v = none) :
    firstUnserializable? vs = none := by
  induction vs with
  | nil => rfl
  | cons v vs ih =>
    obtain ⟨hv, hvs⟩ := List.forall_mem_cons.mp h
    rw [firstUnserializable?, hv, ih hvs]
    rfl

theorem unserializableField?_eq_none {fs : List (Text × Value)}
    (h : ∀ f ∈ fs, unserializable? f.2 = none) : unserializableField? fs = none := by
  induction fs with
  | nil => rfl
  | cons f fs ih =>
    obtain ⟨hf, hfs⟩ := List.forall_mem_cons.mp h
    rw [unserializableField?, hf, ih hfs]
    rfl

theorem unserializable?_of_storable {v : Value} (h : Storable v) : unserializable? v = none := by
  induction h with
  | null | bool _ | text _ => rfl
  | int h => rw [unserializable?, unwritableInteger?, if_neg (Bool.eq_false_iff.mp h)]; rfl
  | list _ ih => exact firstUnserializable?_eq_none ih
  | object _ ih => exact unserializableField?_eq_none ih

/-- **The text that a storable value is written as spells the respelled value.** -/
theorem read_written {v : Value} (h : Storable v) :
    read (written v) = .ok (.ofValue (respelled v)) := by
  have hvalue := comesBack h [] nofun ((written v).length + 1) (by omega)
  obtain ⟨c, t, hct, -⟩ := startsToken_written h
  rw [List.append_nil] at hvalue
  rw [read, if_neg (by simp [hct]), hvalue]
  rfl

/-- **A storable value is written, and what is read is the respelled value as a document.** -/
theorem read_write {v : Value} (h : Storable v) :
    ∃ text, write v = .ok text ∧ read text = .ok (.ofValue (respelled v)) :=
  ⟨written v, by rw [write, unserializable?_of_storable h], read_written h⟩

end Json5

/-! ## Values as documents -/

theorem Document.ofValues_map {α : Type} {f : α → Value} {g : α → Document}
    (h : ∀ a, ofValue (f a) = g a) (l : List α) : ofValues (l.map f) = l.map g := by
  induction l with
  | nil => rfl
  | cons a l ih => rw [List.map_cons, ofValues, h, ih, List.map_cons]

theorem Document.mem_ofValues {vs : List Value} {d : Document} :
    d ∈ ofValues vs ↔ ∃ v ∈ vs, ofValue v = d := by
  rw [show ofValues vs = vs.map ofValue by rw [← ofValues_map (fun _ => rfl), List.map_id'],
    List.mem_map]

theorem Document.mem_ofFields {fs : List (Text × Value)} {e : Text × Document} :
    e ∈ ofFields fs ↔ ∃ f ∈ fs, (f.1, ofValue f.2) = e := by
  induction fs with
  | nil => simp [ofFields]
  | cons f fs ih => simp [ofFields, ih, eq_comm]

/-- A storable value is a plain document. -/
theorem Document.plain_ofValue {v : Value} (h : Json5.Storable v) : (ofValue v).Plain := by
  induction h with
  | null | bool _ | int _ | text _ => exact plain_leaf rfl
  | list _ ih =>
    refine plain_array.mpr fun d hd => ?_
    obtain ⟨v, hv, rfl⟩ := mem_ofValues.mp hd
    exact ih v hv
  | object _ ih =>
    refine plain_object.mpr fun e he => ?_
    obtain ⟨f, hf, rfl⟩ := mem_ofFields.mp he
    exact ih f hf

/-- No numeral in a value is faulty. -/
theorem Document.numeric_ofValue {v : Value} (h : Json5.Storable v) : (ofValue v).Numeric := by
  induction h with
  | null | bool _ | int _ | text _ => exact throughout_leaf.mpr nofun
  | list _ ih =>
    refine throughout_array.mpr ⟨nofun, fun d hd => ?_⟩
    obtain ⟨v, hv, rfl⟩ := mem_ofValues.mp hd
    exact ih v hv
  | object _ ih =>
    refine throughout_object.mpr ⟨nofun, fun e he => ?_⟩
    obtain ⟨f, hf, rfl⟩ := mem_ofFields.mp he
    exact ih f hf

end FiniteAutomata
