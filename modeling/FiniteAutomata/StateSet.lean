/-!
# StateSet — finite sets of states, kept in ascending order

States are integers. A `StateSet` lists its members in strictly ascending order, so two sets are
equal exactly when they have the same members (`StateSet.ext`), and equality of sets is decidable
equality of values. Every operation comes with the one lemma that says what its members are.
-/

namespace FiniteAutomata

/-- A state is named by an integer. -/
abbrev State := Int

/-- The state is one of the first `n`. -/
def InRange (n : Nat) (s : State) : Prop := 0 ≤ s ∧ s < n

instance (n : Nat) (s : State) : Decidable (InRange n s) :=
  inferInstanceAs (Decidable (0 ≤ s ∧ s < (n : Int)))

/-- **A finite set of states**, listed in strictly ascending order. -/
structure StateSet where
  elems : List State
  ascending : elems.Pairwise (· < ·)
deriving DecidableEq

namespace StateSet

instance : Membership State StateSet := ⟨fun S s => s ∈ S.elems⟩

instance (s : State) (S : StateSet) : Decidable (s ∈ S) :=
  inferInstanceAs (Decidable (s ∈ S.elems))

@[simp] theorem mem_elems {S : StateSet} {s : State} : s ∈ S.elems ↔ s ∈ S := Iff.rfl

/-! ## Extensionality -/

/-- Two ascending lists with the same members are equal. -/
theorem eq_of_mem_iff_of_pairwise : ∀ {l m : List State},
    l.Pairwise (· < ·) → m.Pairwise (· < ·) → (∀ s, s ∈ l ↔ s ∈ m) → l = m
  | [], [], _, _, _ => rfl
  | [], b :: m, _, _, h => absurd ((h b).2 (by simp)) (by simp)
  | a :: l, [], _, _, h => absurd ((h a).1 (by simp)) (by simp)
  | a :: l, b :: m, hl, hm, h => by
      obtain ⟨hal, hl'⟩ := List.pairwise_cons.mp hl
      obtain ⟨hbm, hm'⟩ := List.pairwise_cons.mp hm
      have hab : a = b := by
        rcases List.mem_cons.mp ((h a).1 (by simp)) with hab | ham
        · exact hab
        · rcases List.mem_cons.mp ((h b).2 (by simp)) with hba | hbl
          · exact hba.symm
          · exact absurd (hal b hbl) (Int.lt_asymm (hbm a ham))
      subst hab
      refine congrArg (a :: ·)
        (eq_of_mem_iff_of_pairwise hl' hm' fun s => ⟨fun hs => ?_, fun hs => ?_⟩)
      · rcases List.mem_cons.mp ((h s).1 (by simp [hs])) with he | hs'
        · exact absurd (hal s hs) (he ▸ Int.lt_irrefl _)
        · exact hs'
      · rcases List.mem_cons.mp ((h s).2 (by simp [hs])) with he | hs'
        · exact absurd (hbm s hs) (he ▸ Int.lt_irrefl _)
        · exact hs'

/-- **Sets with the same members are equal.** -/
theorem ext {S T : StateSet} (h : ∀ s, s ∈ S ↔ s ∈ T) : S = T := by
  obtain ⟨l, hl⟩ := S
  obtain ⟨m, hm⟩ := T
  congr
  exact eq_of_mem_iff_of_pairwise hl hm h

/-! ## Building sets -/

/-- The set without members. -/
def empty : StateSet := ⟨[], .nil⟩

instance : EmptyCollection StateSet := ⟨empty⟩

@[simp] theorem notMem_empty (s : State) : ¬ s ∈ (∅ : StateSet) := by
  change ¬ s ∈ ([] : List State)
  simp

/-- The ascending list with `s` put in its place, unless it is already there. -/
def insertInto (s : State) : List State → List State
  | [] => [s]
  | t :: ts => if s < t then s :: t :: ts else if s = t then t :: ts else t :: insertInto s ts

theorem mem_insertInto {s x : State} : ∀ {l : List State}, x ∈ insertInto s l ↔ x = s ∨ x ∈ l
  | [] => by simp [insertInto]
  | t :: ts => by
      unfold insertInto
      split
      · simp
      · split
        · rename_i _ h
          subst h
          simp
        · simp only [List.mem_cons, mem_insertInto (l := ts)]
          exact or_left_comm

theorem pairwise_insertInto {s : State} : ∀ {l : List State},
    l.Pairwise (· < ·) → (insertInto s l).Pairwise (· < ·)
  | [], _ => by simp [insertInto]
  | t :: ts, h => by
      obtain ⟨ht, hts⟩ := List.pairwise_cons.mp h
      unfold insertInto
      split
      · rename_i hlt
        refine List.pairwise_cons.mpr ⟨fun x hx => ?_, h⟩
        rcases List.mem_cons.mp hx with rfl | hx
        · exact hlt
        · exact Int.lt_trans hlt (ht x hx)
      · split
        · exact h
        · rename_i hlt hne
          refine List.pairwise_cons.mpr ⟨fun x hx => ?_, pairwise_insertInto hts⟩
          rcases mem_insertInto.mp hx with rfl | hx
          · exact (Int.lt_or_gt_of_ne hne).resolve_left hlt
          · exact ht x hx

/-- The set with one more member. -/
def insert (s : State) (S : StateSet) : StateSet :=
  ⟨insertInto s S.elems, pairwise_insertInto S.ascending⟩

@[simp] theorem mem_insert {s x : State} {S : StateSet} : x ∈ S.insert s ↔ x = s ∨ x ∈ S :=
  mem_insertInto

/-- The set of the members of a list. -/
def ofList (l : List State) : StateSet := l.foldr insert ∅

@[simp] theorem mem_ofList {x : State} : ∀ {l : List State}, x ∈ ofList l ↔ x ∈ l
  | [] => by simp [ofList]
  | s :: l => by
      change x ∈ (ofList l).insert s ↔ x ∈ s :: l
      rw [mem_insert, mem_ofList, List.mem_cons]

/-- The set with one member. -/
def singleton (s : State) : StateSet := ofList [s]

@[simp] theorem mem_singleton {s x : State} : x ∈ singleton s ↔ x = s := by simp [singleton]

/-- The members of either set. -/
def union (S T : StateSet) : StateSet := S.elems.foldr insert T

instance : Union StateSet := ⟨union⟩

@[simp] theorem mem_union {x : State} {S T : StateSet} : x ∈ S ∪ T ↔ x ∈ S ∨ x ∈ T := by
  have key : ∀ l : List State, x ∈ l.foldr insert T ↔ x ∈ l ∨ x ∈ T := by
    intro l
    induction l with
    | nil => simp
    | cons s l ih => simp [ih, or_assoc]
  exact key S.elems

/-! ## Questions -/

/-- The set has no member. -/
def isEmpty (S : StateSet) : Bool := S.elems.isEmpty

theorem isEmpty_iff {S : StateSet} : S.isEmpty = true ↔ S = ∅ := by
  constructor
  · intro h
    refine ext fun s => ⟨fun hs => ?_, fun hs => absurd hs (notMem_empty s)⟩
    have hnil : S.elems = [] := List.isEmpty_iff.mp h
    rw [← mem_elems, hnil] at hs
    simp at hs
  · rintro rfl
    rfl

/-- The two sets have a member in common. -/
def meets (S T : StateSet) : Bool := S.elems.any (· ∈ T)

theorem meets_iff {S T : StateSet} : S.meets T = true ↔ ∃ s, s ∈ S ∧ s ∈ T := by
  simp [meets]

end StateSet

end FiniteAutomata
