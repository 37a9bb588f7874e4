import FiniteAutomata.Proofs.Nfa.Query
import FiniteAutomata.Proofs.Subset.Limit
import Mathlib.Data.Set.Function

/-!
# Proofs/Subset/Renaming — the subset construction does not depend on the names of states

An automaton is a renaming of another if a bijection of the states carries the start state, the
accepting states and all moves over (`Nfa.IsRenaming`); how the moves are listed as transitions is
left free. Then every set of states has an image (`StateSet.image`), and the two explorations go on
in step, each set of the one being the image of the set of the other
(`IsRenaming.exploration_image`): so with any limit both fail alike or give the same rows
(`IsRenaming.toDfa_image`).
-/

namespace FiniteAutomata

/-! ## Images of sets -/

namespace StateSet

/-- The images of the members. -/
def image (p : State → State) (S : StateSet) : StateSet := .ofList (S.elems.map p)

@[simp] theorem mem_image {p : State → State} {S : StateSet} {x : State} :
    x ∈ S.image p ↔ ∃ s ∈ S, p s = x := by
  simp [image]

theorem isEmpty_image (p : State → State) (S : StateSet) : (S.image p).isEmpty = S.isEmpty := by
  rw [Bool.eq_iff_iff, isEmpty_iff, isEmpty_iff]
  constructor
  · intro h
    refine ext fun s => ⟨fun hs => ?_, fun hs => absurd hs (notMem_empty s)⟩
    have himage : p s ∈ S.image p := mem_image.mpr ⟨s, hs, rfl⟩
    exact absurd (h ▸ himage) (notMem_empty _)
  · rintro rfl
    rfl

section Injective

variable {n : Nat} {p : State → State} (hp : Set.InjOn p {s | InRange n s})

include hp

theorem mem_of_mem_image {S : StateSet} (hS : S.Within n) {s : State} (hs : InRange n s)
    (h : p s ∈ S.image p) : s ∈ S := by
  obtain ⟨x, hx, hxs⟩ := mem_image.mp h
  exact hp (hS x hx) hs hxs ▸ hx

/-- **Sets with the same image are equal.** -/
theorem image_inj {S T : StateSet} (hS : S.Within n) (hT : T.Within n) :
    S.image p = T.image p ↔ S = T := by
  refine ⟨fun h => ext fun s => ⟨fun hs => ?_, fun hs => ?_⟩, fun h => h ▸ rfl⟩
  · exact mem_of_mem_image hp hT (hS s hs) (h ▸ mem_image.mpr ⟨s, hs, rfl⟩)
  · exact mem_of_mem_image hp hS (hT s hs) (h ▸ mem_image.mpr ⟨s, hs, rfl⟩)

theorem meets_image {S T : StateSet} (hS : S.Within n) (hT : T.Within n) :
    (S.image p).meets (T.image p) = S.meets T := by
  rw [Bool.eq_iff_iff, meets_iff, meets_iff]
  constructor
  · rintro ⟨x, hxS, hxT⟩
    obtain ⟨s, hs, rfl⟩ := mem_image.mp hxS
    exact ⟨s, hs, mem_of_mem_image hp hT (hS s hs) hxT⟩
  · rintro ⟨s, hsS, hsT⟩
    exact ⟨p s, mem_image.mpr ⟨s, hsS, rfl⟩, mem_image.mpr ⟨s, hsT, rfl⟩⟩

/-- An image has as many members as the set. -/
theorem length_image {S : StateSet} (hS : S.Within n) :
    (S.image p).elems.length = S.elems.length := by
  have hnodup : (S.elems.map p).Nodup := by
    refine List.Nodup.map_on (fun x hx y hy h => hp (hS x hx) (hS y hy) h) ?_
    exact S.ascending.imp Int.ne_of_lt
  have hperm : (S.image p).elems.Perm (S.elems.map p) := by
    refine (List.perm_ext_iff_of_nodup ((S.image p).ascending.imp Int.ne_of_lt) hnodup).mpr ?_
    intro x
    rw [mem_elems, mem_image, List.mem_map]
    rfl
  rw [hperm.length_eq, List.length_map]

end Injective

end StateSet

/-! ## Images of tables and explorations -/

namespace IdentityTable

/-- The table of the images. -/
def image (p : State → State) (T : IdentityTable StateSet) : IdentityTable StateSet :=
  ⟨T.identities.map (·.image p)⟩

/-- All sets of the table consist of the first `n` states. -/
def Within (n : Nat) (T : IdentityTable StateSet) : Prop := ∀ S ∈ T.identities, S.Within n

variable {n : Nat} {T : IdentityTable StateSet} {S : StateSet}

theorem size_image (p : State → State) : (T.image p).size = T.size := List.length_map _

theorem Within.insert (hT : T.Within n) (hS : S.Within n) : (T.insert S).2.2.Within n := by
  by_cases hmem : S ∈ T.identities
  · obtain ⟨i, -, hinsert⟩ := insert_of_mem hmem
    rw [hinsert]
    exact hT
  · rw [insert_of_notMem hmem]
    intro U hU
    rcases List.mem_append.mp hU with hU | hU
    · exact hT U hU
    · exact List.mem_singleton.mp hU ▸ hS

/-- **Looking up an image gives what looking up the set gives.** -/
theorem insert_image {p : State → State} (hp : Set.InjOn p {s | InRange n s}) (hT : T.Within n)
    (hS : S.Within n) :
    (T.image p).insert (S.image p) =
      ((T.insert S).1, (T.insert S).2.1, (T.insert S).2.2.image p) := by
  have hindex : (T.image p).indexOf? (S.image p) = T.indexOf? S := by
    rw [indexOf?, image, List.findIdx?_map, indexOf?]
    refine findIdx?_congr fun U hU => ?_
    have hinj := StateSet.image_inj hp (hT U hU) hS
    change (U.image p == S.image p) = (U == S)
    rw [Bool.eq_iff_iff, beq_iff_eq, beq_iff_eq, hinj]
  simp only [IdentityTable.insert, hindex]
  cases T.indexOf? S with
  | some i => rfl
  | none => simp [image, size]

end IdentityTable

/-- The exploration of the images. -/
def Exploration.image (p : State → State) (e : Exploration) : Exploration :=
  ⟨e.found.image p, e.rows⟩

/-- The state with the image of its identity. -/
def DfaState.image (p : State → State) (q : DfaState StateSet) : DfaState StateSet :=
  ⟨q.identity.image p, q.targets⟩

namespace Dfa

variable {p : State → State} {D : Dfa StateSet}

/-- **The automaton with the images of its identities.** -/
def image (p : State → State) (D : Dfa StateSet) : Dfa StateSet where
  alphabet := D.alphabet
  states := D.states.map (·.image p)
  accepting := D.accepting.image p
  nonempty := by simpa using D.nonempty
  states_fit q hq := by
    obtain ⟨q', hq', rfl⟩ := List.mem_map.mp hq
    rw [List.length_map]
    exact ⟨(D.states_fit q' hq').symbols_perm, (D.states_fit q' hq').targets_lt⟩

theorem identities_image : (D.image p).identities = D.identities.map (·.image p) := by
  simp [identities, image, DfaState.image]

theorem size_image : (D.image p).size = D.size := List.length_map _

theorem target_image (i : Nat) (a : Symbol) : (D.image p).target i a = D.target i a := by
  have hget : (D.image p).states[i]? = (D.states[i]?).map (·.image p) := List.getElem?_map
  rw [target, target, hget]
  cases D.states[i]? <;> rfl

theorem isAccepting_image {n : Nat} (hp : Set.InjOn p {s | InRange n s})
    (hstates : ∀ S ∈ D.identities, S.Within n) (haccepting : D.accepting.Within n) (i : Nat) :
    (D.image p).isAccepting i = D.isAccepting i := by
  have hget : (D.image p).states[i]? = (D.states[i]?).map (·.image p) := List.getElem?_map
  rw [isAccepting, isAccepting, hget]
  cases hq : D.states[i]? with
  | none => rfl
  | some q =>
    have hmem : q.identity ∈ D.identities := List.mem_map_of_mem (List.mem_of_getElem? hq)
    exact StateSet.meets_image hp (hstates _ hmem) haccepting

end Dfa

namespace Nfa

/-! ## Renaming -/

/-- **The second automaton is the first with its states renamed by `p`**, a bijection of the states
that carries over the start state, the accepting states, and what a state leads to on each label. -/
structure IsRenaming (N M : Nfa) (p : State → State) : Prop where
  stateCount_eq : M.stateCount = N.stateCount
  alphabet_eq : M.alphabet = N.alphabet
  bijOn : Set.BijOn p {s | InRange N.stateCount s} {s | InRange N.stateCount s}
  start_eq : M.start = p N.start
  accepting_eq : M.accepting = N.accepting.image p
  query_eq : ∀ s, InRange N.stateCount s → ∀ l : Label, (∀ a, l = .symbol a → a ∈ N.alphabet) →
    M.query (p s) l = (N.query s l).image p

variable {N M : Nfa} {p : State → State}

theorem within_reachedStates (N : Nfa) : N.reachedStates.Within N.stateCount := by
  intro x hx
  rcases List.mem_cons.mp (StateSet.mem_ofList.mp hx) with rfl | hx
  · exact N.start_inRange
  · obtain ⟨t, ht, rfl⟩ := List.mem_map.mp hx
    exact (N.transitions_fit t ht).target_inRange

/-- A state is reached if it is the start state or some state leads to it. -/
theorem mem_reachedStates {x : State} :
    x ∈ N.reachedStates ↔ x = N.start ∨ ∃ s l, x ∈ N.query s l := by
  rw [reachedStates, StateSet.mem_ofList, List.mem_cons, List.mem_map]
  refine or_congr_right ⟨?_, ?_⟩
  · rintro ⟨t, ht, rfl⟩
    cases hi : t.inputs with
    | nil => exact ⟨t.source, .epsilon, target_mem_query ht hi⟩
    | cons a as => exact ⟨t.source, .symbol a, target_mem_query ht (show a ∈ t.inputs by simp [hi])⟩
  · rintro ⟨s, l, hx⟩
    obtain ⟨t, ht, -, -, rfl⟩ := mem_query.mp hx
    exact ⟨t, ht, rfl⟩

theorem within_visit {limit : Value} {S : StateSet} : ∀ {symbols : List Symbol}
    {found : IdentityTable StateSet} {r : List (Symbol × Option Nat) × IdentityTable StateSet},
    N.visit limit S symbols found = .ok r → found.Within N.stateCount → r.2.Within N.stateCount
  | [], _, _, h, hfound => Except.ok.inj h ▸ hfound
  | a :: rest, found, r, h, hfound => by
      by_cases hempty : N.step S a = ∅
      · rw [visit_cons_of_empty hempty] at h
        obtain ⟨r', hrest, hr⟩ := bind_eq_ok.mp h
        obtain rfl := Except.ok.inj hr
        exact within_visit (r := r') hrest hfound
      · rw [visit_cons hempty] at h
        obtain ⟨-, -, h⟩ := bind_eq_ok.mp h
        obtain ⟨r', hrest, hr⟩ := bind_eq_ok.mp h
        obtain rfl := Except.ok.inj hr
        exact within_visit (r := r') hrest (hfound.insert (within_step S a))

namespace IsRenaming

variable (h : N.IsRenaming M p)

include h

/-! ### Moves and paths -/

/-- **What the image of a state leads to is the image of what the state leads to.** -/
theorem mem_query_iff {s x : State} {l : Label} (hs : InRange N.stateCount s) :
    x ∈ M.query (p s) l ↔ ∃ y ∈ N.query s l, p y = x := by
  constructor
  · intro hx
    rw [h.query_eq s hs l (h.alphabet_eq ▸ mem_alphabet_of_mem_query hx)] at hx
    exact StateSet.mem_image.mp hx
  · rintro ⟨y, hy, hyx⟩
    rw [h.query_eq s hs l (mem_alphabet_of_mem_query hy)]
    exact StateSet.mem_image.mpr ⟨y, hy, hyx⟩

/-- Paths are carried over. -/
theorem path_map {x y : State} {w : List Symbol} (hpath : N.Path x w y) :
    M.Path (p x) w (p y) := by
  have hmove : ∀ {t : Transition} {l : Label}, t ∈ N.transitions → t.Reads l →
      ∃ u ∈ M.transitions, u.Reads l ∧ u.source = p t.source ∧ u.target = p t.target := by
    intro t l ht hr
    refine mem_query.mp ((h.mem_query_iff (N.transitions_fit t ht).source_inRange).mpr ?_)
    exact ⟨t.target, target_mem_query ht hr, rfl⟩
  induction hpath with
  | done => exact .done _
  | skip ht hr _ ih =>
    obtain ⟨u, hu, hur, hsource, htarget⟩ := hmove ht hr
    exact hsource ▸ .skip hu hur (htarget ▸ ih)
  | read ht hr _ ih =>
    obtain ⟨u, hu, hur, hsource, htarget⟩ := hmove ht hr
    exact hsource ▸ .read hu hur (htarget ▸ ih)

/-- A path from an image is the image of a path. -/
theorem exists_path {x' y' : State} {w : List Symbol} (hpath : M.Path x' w y') :
    ∀ x, InRange N.stateCount x → p x = x' → ∃ y, N.Path x w y ∧ p y = y' := by
  have hmove : ∀ {t : Transition} {l : Label} {x : State}, t ∈ M.transitions → t.Reads l →
      InRange N.stateCount x → p x = t.source →
      ∃ u ∈ N.transitions, u.Reads l ∧ u.source = x ∧ p u.target = t.target := by
    intro t l x ht hr hx hsource
    have hmem : t.target ∈ M.query (p x) l := hsource ▸ target_mem_query ht hr
    obtain ⟨y, hy, hyt⟩ := (h.mem_query_iff hx).mp hmem
    obtain ⟨u, hu, hur, hus, rfl⟩ := mem_query.mp hy
    exact ⟨u, hu, hur, hus, hyt⟩
  induction hpath with
  | done => exact fun x _ hx => ⟨x, .done x, hx⟩
  | skip ht hr _ ih =>
    intro x hx hsource
    obtain ⟨u, hu, hur, rfl, htarget⟩ := hmove ht hr hx hsource
    obtain ⟨y, hy, hyy⟩ := ih u.target (N.transitions_fit u hu).target_inRange htarget
    exact ⟨y, .skip hu hur hy, hyy⟩
  | read ht hr _ ih =>
    intro x hx hsource
    obtain ⟨u, hu, hur, rfl, htarget⟩ := hmove ht hr hx hsource
    obtain ⟨y, hy, hyy⟩ := ih u.target (N.transitions_fit u hu).target_inRange htarget
    exact ⟨y, .read hu hur hy, hyy⟩

/-! ### Sets in the course of the simulation -/

theorem move_image {S : StateSet} (hS : S.Within N.stateCount) (l : Label) :
    M.move (S.image p) l = (N.move S l).image p := by
  refine StateSet.ext fun x => ?_
  rw [mem_move_iff_query, StateSet.mem_image]
  constructor
  · rintro ⟨s', hs', hx⟩
    obtain ⟨s, hs, rfl⟩ := StateSet.mem_image.mp hs'
    obtain ⟨y, hy, hyx⟩ := (h.mem_query_iff (hS s hs)).mp hx
    exact ⟨y, mem_move_iff_query.mpr ⟨s, hs, hy⟩, hyx⟩
  · rintro ⟨y, hy, hyx⟩
    obtain ⟨s, hs, hys⟩ := mem_move_iff_query.mp hy
    exact ⟨p s, StateSet.mem_image.mpr ⟨s, hs, rfl⟩, (h.mem_query_iff (hS s hs)).mpr ⟨y, hys, hyx⟩⟩

theorem closure_image {S : StateSet} (hS : S.Within N.stateCount) :
    M.closure (S.image p) = (N.closure S).image p := by
  refine StateSet.ext fun x => ?_
  rw [mem_closure, StateSet.mem_image]
  constructor
  · rintro ⟨s', hs', hpath⟩
    obtain ⟨s, hs, rfl⟩ := StateSet.mem_image.mp hs'
    obtain ⟨y, hy, hyx⟩ := h.exists_path hpath s (hS s hs) rfl
    exact ⟨y, mem_closure.mpr ⟨s, hs, hy⟩, hyx⟩
  · rintro ⟨y, hy, rfl⟩
    obtain ⟨s, hs, hpath⟩ := mem_closure.mp hy
    exact ⟨p s, StateSet.mem_image.mpr ⟨s, hs, rfl⟩, h.path_map hpath⟩

/-- **One step of the simulation commutes with renaming.** -/
theorem step_image {S : StateSet} (hS : S.Within N.stateCount) (a : Symbol) :
    M.step (S.image p) a = (N.step S a).image p := by
  rw [step, step, h.move_image hS, h.closure_image (within_move S _)]

theorem startSet_image : M.startSet = N.startSet.image p := by
  have hstart : StateSet.singleton M.start = (StateSet.singleton N.start).image p := by
    refine StateSet.ext fun x => ?_
    simp [h.start_eq, eq_comm]
  rw [startSet, hstart, h.closure_image N.within_singleton_start, startSet]

/-- From a set of states the same words are accepted as from its image. -/
theorem acceptsFrom_image {S : StateSet} (hS : S.Within N.stateCount) (w : List Symbol) :
    M.acceptsFrom (S.image p) w = N.acceptsFrom S w := by
  induction w generalizing S with
  | nil =>
    rw [acceptsFrom, acceptsFrom, h.accepting_eq]
    exact StateSet.meets_image h.bijOn.injOn hS N.within_accepting
  | cons a w ih =>
    simp only [acceptsFrom, h.alphabet_eq, h.step_image hS, StateSet.isEmpty_image,
      ih (within_step S a)]

/-- **A renamed automaton accepts the same words.** -/
theorem accepts_eq (w : List Symbol) : M.accepts w = N.accepts w := by
  rw [accepts, accepts, h.startSet_image]
  exact h.acceptsFrom_image (within_closure N.within_singleton_start) w

theorem reachedStates_image : M.reachedStates = N.reachedStates.image p := by
  refine StateSet.ext fun x => ?_
  rw [mem_reachedStates, StateSet.mem_image]
  constructor
  · rintro (rfl | ⟨s', l, hx⟩)
    · exact ⟨N.start, mem_reachedStates.mpr (.inl rfl), h.start_eq.symm⟩
    · have hs' := (inRange_of_mem_query hx).1
      rw [h.stateCount_eq] at hs'
      obtain ⟨s, hs, rfl⟩ := h.bijOn.surjOn hs'
      obtain ⟨y, hy, hyx⟩ := (h.mem_query_iff hs).mp hx
      exact ⟨y, mem_reachedStates.mpr (.inr ⟨s, l, hy⟩), hyx⟩
  · rintro ⟨y, hy, rfl⟩
    rcases mem_reachedStates.mp hy with rfl | ⟨s, l, hy⟩
    · exact .inl h.start_eq.symm
    · have hs := (inRange_of_mem_query hy).1
      exact .inr ⟨p s, l, (h.mem_query_iff hs).mpr ⟨y, hy, rfl⟩⟩

/-- As many sets can turn up. -/
theorem subsetBound_eq : M.subsetBound = N.subsetBound := by
  rw [subsetBound, subsetBound, h.reachedStates_image,
    StateSet.length_image h.bijOn.injOn N.within_reachedStates]

/-! ### The exploration -/

theorem visit_image (limit : Value) {S : StateSet} (hS : S.Within N.stateCount) :
    ∀ {symbols : List Symbol} {found : IdentityTable StateSet}, found.Within N.stateCount →
      M.visit limit (S.image p) symbols (found.image p) =
        (N.visit limit S symbols found).map fun r => (r.1, r.2.image p)
  | [], _, _ => rfl
  | a :: rest, found, hfound => by
      have himage : M.step (S.image p) a = (N.step S a).image p := h.step_image hS a
      by_cases hempty : N.step S a = ∅
      · have hempty' : M.step (S.image p) a = ∅ := by rw [himage, hempty]; rfl
        rw [visit_cons_of_empty hempty, visit_cons_of_empty hempty', visit_image limit hS hfound]
        cases N.visit limit S rest found <;> rfl
      · have hempty' : M.step (S.image p) a ≠ ∅ := fun he => hempty <| by
          rwa [← StateSet.isEmpty_iff, himage, StateSet.isEmpty_image, StateSet.isEmpty_iff] at he
        have hstep : (N.step S a).Within N.stateCount := within_step S a
        have hinsert := IdentityTable.insert_image h.bijOn.injOn hfound hstep
        rw [visit_cons hempty, visit_cons hempty', himage, hinsert]
        simp only [IdentityTable.size_image, visit_image limit hS (hfound.insert hstep)]
        cases checkLimit limit (found.insert (N.step S a)).2.1
          (found.insert (N.step S a)).2.2.size with
        | error e => rfl
        | ok u => cases N.visit limit S rest (found.insert (N.step S a)).2.2 <;> rfl

theorem explore_image (limit : Value) : ∀ {k : Nat} {e : Exploration},
    e.found.Within N.stateCount →
      M.explore limit k (e.image p) = (N.explore limit k e).map (·.image p)
  | 0, _, _ => rfl
  | k + 1, e, he => by
      unfold explore
      have hnext : (e.image p).found.identities[(e.image p).rows.length]? =
          (e.found.identities[e.rows.length]?).map (·.image p) := List.getElem?_map
      rw [hnext]
      cases hS : e.found.identities[e.rows.length]? with
      | none => rfl
      | some S =>
        have hwithin : S.Within N.stateCount := he S (List.mem_of_getElem? hS)
        change (M.visit limit (S.image p) M.alphabet.symbols (e.found.image p) >>= _) =
          Except.map _ (N.visit limit S N.alphabet.symbols e.found >>= _)
        rw [h.alphabet_eq, h.visit_image limit hwithin he]
        cases hrun : N.visit limit S N.alphabet.symbols e.found with
        | error e => rfl
        | ok r => exact explore_image limit (e := ⟨r.2, e.rows ++ [r.1]⟩) (within_visit hrun he)

/-- **The explorations go on in step**, and a limit stops both or none. -/
theorem exploration_image (limit : Value) :
    M.exploration limit = (N.exploration limit).map (·.image p) := by
  have hempty : (IdentityTable.empty (σ := StateSet)).Within N.stateCount := fun S hS => nomatch hS
  have hstart : N.startSet.Within N.stateCount := within_closure N.within_singleton_start
  have hinsert := IdentityTable.insert_image h.bijOn.injOn hempty hstart
  rw [exploration, exploration, h.startSet_image, h.subsetBound_eq]
  cases exceeds limit 1 with
  | error e => rfl
  | ok exceeded =>
    cases exceeded with
    | true => rfl
    | false =>
      change M.explore limit _ ⟨(IdentityTable.empty.insert (N.startSet.image p)).2.2, []⟩ = _
      rw [show IdentityTable.empty.insert (N.startSet.image p) = _ from hinsert]
      exact h.explore_image limit (e := ⟨_, []⟩) (hempty.insert hstart)

/-- **The automaton of the sets of a renamed automaton is that of the images**, and a limit stops
both constructions or none. -/
theorem toDfa_image (limit : Value) : M.toDfa limit = (N.toDfa limit).map (·.image p) := by
  have hexploration := h.exploration_image limit
  cases he : N.exploration limit with
  | error e =>
    rw [he] at hexploration
    change (M.exploration limit >>= _) = Except.map _ (N.exploration limit >>= _)
    rw [hexploration, he]
    rfl
  | ok e =>
    rw [he] at hexploration
    obtain ⟨D, hD, halphabet, hstates, haccepting⟩ := exists_toDfa_of_exploration he
    obtain ⟨E, hE, halphabet', hstates', haccepting'⟩ := exists_toDfa_of_exploration hexploration
    rw [hD, hE]
    refine congrArg Except.ok ?_
    have hfound : (Nfa.found (e.image p)).map Dfa.ofPair =
        ((Nfa.found e).map Dfa.ofPair).map (·.image p) := by
      rw [Nfa.found, Nfa.found, List.map_map]
      change ((e.found.identities.map _).zip e.rows).map _ = _
      rw [List.zip_map_left, List.map_map]
      rfl
    have hE' : E.alphabet = (D.image p).alphabet ∧ E.states = (D.image p).states ∧
        E.accepting = (D.image p).accepting := by
      refine ⟨?_, ?_, ?_⟩
      · rw [halphabet', h.alphabet_eq, ← halphabet]
        rfl
      · rw [hstates', hfound, ← hstates]
        rfl
      · rw [haccepting', h.accepting_eq, ← haccepting]
        rfl
    obtain ⟨A, qs, F, hne, hfit⟩ := E
    obtain ⟨rfl, rfl, rfl⟩ := hE'
    rfl

end IsRenaming

end Nfa

end FiniteAutomata
