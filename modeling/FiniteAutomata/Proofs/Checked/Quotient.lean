import FiniteAutomata.Proofs.Checked.Refinement
import FiniteAutomata.Proofs.Minimized.Congruence
import FiniteAutomata.Proofs.Minimized.States

/-!
# Proofs/Checked/Quotient — classes are made into an automaton without any lookup being refused

Minimization looks up the class of every state, of the sink and of every target; it numbers the
classes up to their count, one less if the sink is alone in its class, and looks up a state that
represents each of them. The checked minimization passes on the error of any lookup
(`Dfa.checkedMinimize`). A sink that is alone has the last class (`Dfa.length_leaders_classes`), so
the classes that are left are numbered without a gap and each has a state that was put down for it
first, its leader (`Dfa.lookup_firstPlaces_classes`). Hence the checked minimization is the plain
one (`Dfa.checkedMinimize_eq`), and its automaton can be made one with states
(`Minimized.WellFormed.exists_toDfa`).
-/

namespace FiniteAutomata

/-! ## First places -/

/-- The table with one entry more, unless it has one under that number. -/
def setDefault {α : Type} (table : List (Nat × α)) (c : Nat) (x : α) : List (Nat × α) :=
  if (table.lookup c).isSome then table else (c, x) :: table

/-- For each number in a list the first of its places. -/
def firstPlaces (l : List Nat) : List (Nat × Nat) :=
  l.zipIdx.foldl (fun table p => setDefault table p.1 p.2) []

theorem lookup_setDefault {α : Type} {table : List (Nat × α)} {c d : Nat} {x : α} :
    (setDefault table c x).lookup d = (table.lookup d <|> if d = c then some x else none) := by
  rw [setDefault]
  by_cases hd : d = c
  · subst hd
    cases hx : table.lookup d <;> simp [hx]
  · split <;> simp [List.lookup_cons, beq_false_of_ne hd]

/-- **Under each number of a list stands the first of its places.** -/
theorem lookup_firstPlaces (l : List Nat) (c : Nat) :
    (firstPlaces l).lookup c = l.findIdx? (· == c) := by
  induction l using List.reverseRecOn with
  | nil => rfl
  | append_singleton l d ih =>
    have hstep : firstPlaces (l ++ [d]) = setDefault (firstPlaces l) d l.length := by
      simp [firstPlaces, List.zipIdx_append]
    rw [hstep, lookup_setDefault, ih, List.findIdx?_append, List.findIdx?_singleton]
    by_cases hd : c = d
    · simp [hd]
    · simp [hd, Ne.symm hd]

namespace Dfa

/-! ## The checked minimization -/

/-- Puts the next number into a class, unless a lookup is refused. -/
def Classes.checkedPlace (apart : Nat → Nat → Except Error Bool) (s : Classes) (j : Nat) :
    Except Error Classes := do
  match (← s.leaders.mapM fun i => apart i j).findIdx? (!·) with
  | some c => return ⟨s.leaders, s.classes ++ [c]⟩
  | none => return ⟨s.leaders ++ [j], s.classes ++ [s.leaders.length]⟩

/-- The classes of the numbers below `n`, unless a lookup is refused. -/
def Classes.checkedBelow (apart : Nat → Nat → Except Error Bool) (n : Nat) : Except Error Classes :=
  (List.range n).foldlM (checkedPlace apart) ⟨[], []⟩

variable {σ : Type}

/-- The class that a target belongs to, unless a lookup is refused. -/
def checkedProject (s : Classes) (sinkClass? : Option Nat) : Option Nat → Except Error (Option Nat)
  | some t => do return some (← entryAt s.classes t)
  | none => .ok sinkClass?

/-- The targets of a class on all symbols, taken from a state that represents it, unless a lookup is
refused. -/
def checkedClassRow (D : Dfa σ) (s : Classes) (sinkClass? : Option Nat) (i : Nat) :
    Except Error (List (Value × Option Nat)) :=
  D.alphabet.symbols.mapM fun a => do
    return (.text a, ← checkedProject s sinkClass? (← D.queryValue (.int i) (.text a)))

/-- The automaton of the classes, unless a lookup is refused. -/
def checkedQuotient (D : Dfa σ) (accepting : List Bool) (s : Classes) :
    Except Error (Minimized Nat) := do
  let last ← entryAt s.classes D.sink
  let assigned ← (List.range D.size).mapM fun i => entryAt s.classes i
  let shared := assigned.contains last
  let sinkClass? := if shared then some last else none
  let count := if shared then s.leaders.length else s.leaders.length - 1
  let built ← (List.range count).mapM fun c => do
    let i ← entryUnder (firstPlaces assigned) c
    return (← D.checkedClassRow s sinkClass? i, ← entryAt accepting i)
  return {
    alphabet := D.alphabet
    classAssignment := assigned
    rows := built.map (·.1)
    accepting := (built.zipIdx.filter fun p => p.1.2).map (·.2) }

variable [Identity σ]

/-- **The automaton with one class for all states that no word tells apart, unless a lookup is
refused.** -/
def checkedMinimize (D : Dfa σ) : Except Error (Minimized Nat) := do
  let accepting ← D.checkedAccepting
  let r ← D.checkedRefinement accepting
  let s ← Classes.checkedBelow r.marks.checkedHas (D.size + 1)
  D.checkedQuotient accepting s

/-! ## Classes -/

/-- **Numbers are put into classes without refusal**, if it is known of all of them whether they are
apart. -/
theorem Classes.checkedBelow_eq {apart : Nat → Nat → Bool}
    {checked : Nat → Nat → Except Error Bool} {n : Nat}
    (h : ∀ i < n, ∀ j < n, checked i j = .ok (apart i j)) :
    checkedBelow checked n = .ok (below apart n) := by
  induction n with
  | zero => rfl
  | succ n ih =>
    have hbelow := ih fun i hi j hj => h i (Nat.lt_succ_of_lt hi) j (Nat.lt_succ_of_lt hj)
    have hleaders : ∀ l ∈ (below apart n).leaders, l < n :=
      (below_congr fun _ _ _ _ => rfl).2
    have hapart : ∀ l ∈ (below apart n).leaders, checked l n = .ok (apart l n) := fun l hl =>
      h l (Nat.lt_succ_of_lt (hleaders l hl)) n (Nat.lt_succ_self n)
    rw [checkedBelow, below, List.range_succ, List.foldlM_append, List.foldl_append]
    have hplace : checkedPlace checked (below apart n) n = .ok (place apart (below apart n) n) := by
      refine bind_eq_ok.mpr ⟨_, mapM_eq_ok_map hapart, ?_⟩
      rw [List.findIdx?_map, place]
      change (match (below apart n).leaders.findIdx? fun l => !apart l n with
        | some c => _
        | none => _) = _
      cases (below apart n).leaders.findIdx? fun l => !apart l n <;> rfl
    exact bind_eq_ok.mpr ⟨_, hbelow, bind_eq_ok.mpr ⟨_, hplace, rfl⟩⟩

variable {D : Dfa σ} {c : Nat}

/-- The classes are those of the states and of the sink. -/
theorem lt_length_leaders_iff :
    c < D.classes.leaders.length ↔ c < D.minimize.classCount ∨ c = D.classOf D.sink := by
  rw [lt_classCount_iff]
  constructor
  · intro hc
    have hl := List.getElem?_eq_getElem hc
    have hclass := D.grouped_classes.class_of_leader _ _ hl
    have hle := Nat.le_of_lt_succ (D.grouped_classes.lt_of_leader hl)
    rw [getElem?_classes hle, Option.some.injEq] at hclass
    rcases Nat.lt_or_eq_of_le hle with hlt | heq
    · exact .inl ⟨_, hlt, hclass⟩
    · rw [heq] at hclass
      exact .inr hclass.symm
  · have hlt : ∀ i ≤ D.size, D.classOf i < D.classes.leaders.length := fun i hi => by
      obtain ⟨l, hl, -⟩ := D.grouped_classes.leader_of_class i _ (getElem?_classes hi)
      exact (List.getElem?_eq_some_iff.mp hl).1
    rintro (⟨i, hi, rfl⟩ | rfl)
    · exact hlt i (Nat.le_of_lt hi)
    · exact hlt D.sink (Nat.le_refl _)

/-- **The sink's class is the last if no state shares it**, so the others are numbered without a
gap. -/
theorem length_leaders_classes (D : Dfa σ) :
    (if D.minimize.classAssignment.contains (D.classOf D.sink) then D.classes.leaders.length
      else D.classes.leaders.length - 1) = D.minimize.classCount := by
  have hiff : ∀ c, c < D.classes.leaders.length ↔
      c < D.minimize.classCount ∨ c = D.classOf D.sink := fun _ => lt_length_leaders_iff
  have hsink := (hiff (D.classOf D.sink)).mpr (.inr rfl)
  by_cases hshared : D.classOf D.sink < D.minimize.classCount
  · rw [if_pos (List.contains_iff_mem.mpr (mem_classAssignment.mpr hshared))]
    refine Nat.le_antisymm (Nat.le_of_not_lt fun hlt => ?_) (Nat.le_of_not_lt fun hlt => ?_)
    · have := hiff D.minimize.classCount
      omega
    · have := hiff D.classes.leaders.length
      omega
  · rw [if_neg fun h => hshared (mem_classAssignment.mp (List.contains_iff_mem.mp h))]
    have hcount := hiff D.minimize.classCount
    have hlast := hiff (D.minimize.classCount + 1)
    omega

/-- **The first state of a class is its leader.** -/
theorem lookup_firstPlaces_classes {l : Nat} (hl : (D.keptLeaders D.classes)[c]? = some l) :
    (firstPlaces D.minimize.classAssignment).lookup c = some l := by
  obtain ⟨hlt, hclass, hfirst⟩ := classOf_leader hl
  rw [lookup_firstPlaces, classAssignment_minimize, List.findIdx?_eq_some_iff_getElem]
  refine ⟨by simpa using hlt, by simpa using hclass, fun j hj hsame => ?_⟩
  have hj' : D.classOf j = c := by simpa using hsame
  exact absurd hj (Nat.not_lt.mpr
    (hfirst j (Nat.le_of_lt (Nat.lt_trans hj hlt)) (Nat.le_of_eq hj'.symm)))

/-! ## Minimization -/

/-- The targets of a class are looked up without refusal. -/
theorem checkedClassRow_eq {i : Nat} (hi : i < D.size) :
    D.checkedClassRow D.classes (D.sinkClass? D.classes) i =
      .ok (D.alphabet.symbols.map fun a => (.text a, D.project D.classes (D.target i a))) := by
  refine mapM_eq_ok_map fun a ha => bind_eq_ok.mpr ⟨_, queryValue_int hi ha, ?_⟩
  cases ht : D.target i a with
  | none => rfl
  | some j =>
    have hj := getElem?_classes (Nat.le_of_lt (target_lt_size ht))
    refine bind_eq_ok.mpr ⟨some (D.classOf j), bind_eq_ok.mpr ⟨_, entryAt_eq_ok hj, rfl⟩, rfl⟩

/-- What a class is built from: its row, and whether it accepts. -/
def builtClass (D : Dfa σ) (i : Nat) : List (Value × Option Nat) × Bool :=
  (D.alphabet.symbols.map fun a => (.text a, D.project D.classes (D.target i a)), D.isAccepting i)

/-- Each class is built from its leader. -/
theorem mapM_builtClass (D : Dfa σ) : ((List.range D.minimize.classCount).mapM fun c => do
    let i ← entryUnder (firstPlaces D.minimize.classAssignment) c
    return (← D.checkedClassRow D.classes (D.sinkClass? D.classes) i,
      ← entryAt (D.withSink D.isAccepting) i)) =
    .ok ((D.keptLeaders D.classes).map D.builtClass) := by
  rw [classCount_minimize]
  refine (mapM_eq_ok_map (f := fun c => D.builtClass ((D.keptLeaders D.classes).getD c 0))
    fun c hc => ?_).trans (congrArg Except.ok (List.ext_getElem (by simp) fun c hc _ => ?_))
  · have hl := List.getElem?_eq_getElem (List.mem_range.mp hc)
    have hlt := (classOf_leader hl).1
    refine bind_eq_ok.mpr ⟨_, entryUnder_eq_ok (lookup_firstPlaces_classes hl),
      bind_eq_ok.mpr ⟨_, checkedClassRow_eq hlt,
        bind_eq_ok.mpr ⟨_, entryAt_withSink _ (Nat.lt_succ_of_lt hlt), ?_⟩⟩⟩
    rw [List.getD_eq_getElem?_getD, hl]
    rfl
  · have hlt : c < (D.keptLeaders D.classes).length := by simpa using hc
    simp [hlt]

theorem checkedQuotient_eq (D : Dfa σ) :
    D.checkedQuotient (D.withSink D.isAccepting) D.classes = .ok D.minimize := by
  have hlast := entryAt_eq_ok (getElem?_classes (D := D) (i := D.sink) (Nat.le_refl _))
  have hassigned : (List.range D.size).mapM (fun i => entryAt D.classes.classes i) =
      .ok D.minimize.classAssignment := by
    rw [classAssignment_minimize]
    exact mapM_eq_ok_map fun i hi =>
      entryAt_eq_ok (getElem?_classes (Nat.le_of_lt (List.mem_range.mp hi)))
  refine bind_eq_ok.mpr ⟨_, hlast, bind_eq_ok.mpr ⟨_, hassigned, ?_⟩⟩
  change (List.mapM _ (List.range (if _ then _ else _)) >>= _) = _
  rw [length_leaders_classes]
  have hrows : ((D.keptLeaders D.classes).map D.builtClass).map (·.1) = D.minimize.rows :=
    List.map_map ..
  have haccepting : (((D.keptLeaders D.classes).map D.builtClass).zipIdx.filter fun p =>
      p.1.2).map (·.2) = D.minimize.accepting := by
    rw [List.zipIdx_map, List.filter_map, List.map_map]
    rfl
  refine bind_eq_ok.mpr ⟨_, D.mapM_builtClass, ?_⟩
  rw [hrows, haccepting]
  rfl

/-- **No lookup is refused in minimization.** -/
theorem checkedMinimize_eq (D : Dfa σ) : D.checkedMinimize = .ok D.minimize := by
  have hclasses : Classes.checkedBelow D.refinement.marks.checkedHas (D.size + 1) = .ok D.classes :=
    Classes.checkedBelow_eq fun i hi j hj => Marks.checkedHas_eq hi hj
  exact bind_eq_ok.mpr ⟨_, D.checkedAccepting_eq, bind_eq_ok.mpr ⟨_, D.checkedRefinement_eq,
    bind_eq_ok.mpr ⟨_, hclasses, D.checkedQuotient_eq⟩⟩⟩

/-! ## Classes as states -/

end Dfa

/-- **An automaton with a row for each class can be made one with states.** -/
theorem Minimized.WellFormed.exists_toDfa {M : Minimized Nat} (h : M.WellFormed)
    (hpos : 0 < M.classCount) : ∃ E, M.toDfa = .ok E := by
  obtain ⟨E, hE, -⟩ := h.exists_isOfClasses hpos
  exact ⟨E, hE⟩

end FiniteAutomata
