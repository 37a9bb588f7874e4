import FiniteAutomata.Error
import Mathlib.Data.List.Forall2

/-!
# Proofs/Outcome — when a computation with errors succeeds

A computation yields what was wanted or an error. One that goes on with what another yields succeeds
exactly when both do (`bind_eq_ok`); one that goes through a list succeeds exactly when each step
does (`forM_eq_ok_iff`, `mapM_eq_ok_iff`), and what it yields is known if each step's yield is
(`mapM_eq_ok_iff_eq_map`). An error is always that of some step (`bind_eq_error`,
`exists_of_forM_eq_error`), and of the first that has one (`mapM_eq_error_iff`).
-/

namespace FiniteAutomata

variable {α β : Type}

theorem bind_eq_ok {ε : Type} {x : Except ε α} {f : α → Except ε β} {b : β} :
    x >>= f = .ok b ↔ ∃ a, x = .ok a ∧ f a = .ok b := by
  cases x with
  | error e => exact ⟨fun h => (nomatch h), fun ⟨_, h, _⟩ => (nomatch h)⟩
  | ok a => exact ⟨fun h => ⟨a, rfl, h⟩, fun ⟨_, h, hf⟩ => Except.ok.inj h ▸ hf⟩

/-- What goes on without a failure succeeds if what it goes on with does. -/
theorem exists_bind_ok_iff {ε : Type} {x : Except ε α} {f : α → β} :
    (∃ b, (x >>= fun a => .ok (f a)) = .ok b) ↔ ∃ a, x = .ok a := by
  cases x with
  | error e => exact iff_of_false (fun ⟨_, h⟩ => nomatch h) fun ⟨_, h⟩ => nomatch h
  | ok a => exact iff_of_true ⟨f a, rfl⟩ ⟨a, rfl⟩

/-- What follows a check that yields nothing. -/
theorem check_bind_eq_ok {x : Except Error Unit} {f : Unit → Except Error β} {b : β} :
    x >>= f = .ok b ↔ x = .ok () ∧ f () = .ok b := by
  rw [bind_eq_ok]
  exact ⟨fun ⟨_, hx, hf⟩ => ⟨hx, hf⟩, fun ⟨hx, hf⟩ => ⟨(), hx, hf⟩⟩

theorem bind_eq_error {ε : Type} {x : Except ε α} {f : α → Except ε β} {e : ε} :
    x >>= f = .error e ↔ x = .error e ∨ ∃ a, x = .ok a ∧ f a = .error e := by
  cases x with
  | error e' =>
    refine ⟨fun h => .inl (congrArg _ (Except.error.inj h)), fun h => ?_⟩
    obtain h | ⟨_, h, _⟩ := h
    · exact congrArg _ (Except.error.inj h)
    · exact nomatch h
  | ok a =>
    refine ⟨fun h => .inr ⟨a, rfl, h⟩, fun h => ?_⟩
    obtain h | ⟨_, h, hf⟩ := h
    · exact nomatch h
    · exact Except.ok.inj h ▸ hf

/-- What goes on to different values differs before. -/
theorem bind_ok_inj {f : α → β} (hf : Function.Injective f) {x y : Except Error α} :
    (x >>= fun a => .ok (f a)) = (y >>= fun a => .ok (f a)) ↔ x = y := by
  refine ⟨fun h => ?_, fun h => h ▸ rfl⟩
  cases x <;> cases y
  · exact congrArg _ (Except.error.inj h)
  · exact nomatch h
  · exact nomatch h
  · exact congrArg _ (hf (Except.ok.inj h))

/-- **Going through a list succeeds exactly when each step does.** -/
theorem forM_eq_ok_iff {f : α → Except Error Unit} {l : List α} :
    l.forM f = .ok () ↔ ∀ a ∈ l, f a = .ok () := by
  induction l with
  | nil => exact ⟨fun _ _ ha => absurd ha (List.not_mem_nil), fun _ => rfl⟩
  | cons a l ih =>
    change (f a >>= fun _ => l.forM f) = _ ↔ _
    rw [bind_eq_ok, List.forall_mem_cons, ← ih]
    exact ⟨fun ⟨_, ha, hl⟩ => ⟨ha, hl⟩, fun ⟨ha, hl⟩ => ⟨(), ha, hl⟩⟩

/-- **Taking the members of a list one by one succeeds exactly when each step does.** -/
theorem mapM_eq_ok_iff {f : α → Except Error β} {l : List α} {m : List β} :
    l.mapM f = .ok m ↔ List.Forall₂ (fun a b => f a = .ok b) l m := by
  induction l generalizing m with
  | nil =>
    rw [List.mapM_nil, List.forall₂_nil_left_iff]
    exact ⟨fun h => (Except.ok.inj h).symm, fun h => h ▸ rfl⟩
  | cons a l ih =>
    rw [List.mapM_cons, bind_eq_ok, List.forall₂_cons_left_iff]
    refine exists_congr fun b => ?_
    rw [bind_eq_ok]
    constructor
    · rintro ⟨ha, bs, hl, hm⟩
      exact ⟨bs, ha, ih.mp hl, (Except.ok.inj hm).symm⟩
    · rintro ⟨bs, ha, hl, rfl⟩
      exact ⟨ha, bs, ih.mpr hl, rfl⟩

/-- If each step yields what has some property and can be read back, so does the whole list. -/
theorem mapM_eq_ok_iff_eq_map_and {g : α → Except Error β} {f : β → α} {P : β → Prop}
    (hg : ∀ a b, g a = .ok b ↔ a = f b ∧ P b) {l : List α} {m : List β} :
    l.mapM g = .ok m ↔ l = m.map f ∧ ∀ b ∈ m, P b := by
  rw [mapM_eq_ok_iff]
  simp only [hg]
  induction m generalizing l with
  | nil => simp
  | cons b m ih =>
    rw [List.forall₂_cons_right_iff, List.forall_mem_cons, List.map_cons]
    constructor
    · rintro ⟨_, l, ⟨rfl, hb⟩, hl, rfl⟩
      exact ⟨congrArg _ (ih.mp hl).1, hb, (ih.mp hl).2⟩
    · rintro ⟨rfl, hb, hm⟩
      exact ⟨f b, m.map f, ⟨rfl, hb⟩, ih.mpr ⟨rfl, hm⟩, rfl⟩

/-- **If each step can be read back from what it yields, so can the whole list.** -/
theorem mapM_eq_ok_iff_eq_map {g : α → Except Error β} {f : β → α}
    (hg : ∀ a b, g a = .ok b ↔ a = f b) {l : List α} {m : List β} :
    l.mapM g = .ok m ↔ l = m.map f := by
  rw [mapM_eq_ok_iff_eq_map_and fun a b => (hg a b).trans (and_iff_left trivial).symm]
  exact and_iff_left fun _ _ => trivial

/-- The same if only the steps that are taken can be read back. -/
theorem mapM_eq_ok_iff_eq_map_of_mem {g : α → Except Error β} {f : β → α} {l : List α}
    (hg : ∀ a ∈ l, ∀ b, g a = .ok b ↔ a = f b) {m : List β} : l.mapM g = .ok m ↔ l = m.map f := by
  rw [mapM_eq_ok_iff]
  induction l generalizing m with
  | nil => rw [List.forall₂_nil_left_iff, List.nil_eq, List.map_eq_nil_iff]
  | cons a l ih =>
    obtain ⟨ha, hl⟩ := List.forall_mem_cons.mp hg
    rw [List.forall₂_cons_left_iff, eq_comm, List.map_eq_cons_iff]
    simp only [ha, ih hl]
    constructor
    · rintro ⟨b, m, rfl, rfl, rfl⟩
      exact ⟨b, m, rfl, rfl, rfl⟩
    · rintro ⟨b, m, rfl, rfl, rfl⟩
      exact ⟨b, m, rfl, rfl, rfl⟩

/-- **If each step yields one thing where it succeeds, so does the whole list.** -/
theorem mapM_eq_ok_iff_forall_and_map_eq {g : α → Except Error β} {f : α → β} {P : α → Prop}
    {l : List α} (hg : ∀ a ∈ l, ∀ b, g a = .ok b ↔ P a ∧ f a = b) {m : List β} :
    l.mapM g = .ok m ↔ (∀ a ∈ l, P a) ∧ l.map f = m := by
  rw [mapM_eq_ok_iff]
  induction l generalizing m with
  | nil => simp [eq_comm]
  | cons a l ih =>
    obtain ⟨ha, hl⟩ := List.forall_mem_cons.mp hg
    rw [List.forall₂_cons_left_iff, List.forall_mem_cons, List.map_cons]
    simp only [ha, ih hl]
    constructor
    · rintro ⟨_, _, ⟨hPa, rfl⟩, ⟨hPl, rfl⟩, rfl⟩
      exact ⟨⟨hPa, hPl⟩, rfl⟩
    · rintro ⟨⟨hPa, hPl⟩, rfl⟩
      exact ⟨_, _, ⟨hPa, rfl⟩, ⟨hPl, rfl⟩, rfl⟩

/-- **Going through a list with a value that each step renews succeeds if each step does.** -/
theorem foldlM_eq_ok {f : β → α → Except Error β} {g : β → α → β} {l : List α}
    (h : ∀ b, ∀ a ∈ l, f b a = .ok (g b a)) (b : β) : l.foldlM f b = .ok (l.foldl g b) := by
  induction l generalizing b with
  | nil => rfl
  | cons a l ih =>
    rw [List.foldlM_cons, List.foldl_cons, h b a List.mem_cons_self]
    exact ih (fun b a ha => h b a (List.mem_cons_of_mem _ ha)) (g b a)

/-- If each step yields one thing, the whole list yields the list of them. -/
theorem mapM_eq_ok_map {g : α → Except Error β} {f : α → β} {l : List α}
    (h : ∀ a ∈ l, g a = .ok (f a)) : l.mapM g = .ok (l.map f) := by
  refine (mapM_eq_ok_iff_forall_and_map_eq (P := fun _ => True) fun a ha b => ?_).mpr
    ⟨fun _ _ => trivial, rfl⟩
  rw [h a ha, true_and, Except.ok.injEq]

theorem exists_of_forM_eq_error {f : α → Except Error Unit} {l : List α} {e : Error}
    (h : l.forM f = .error e) : ∃ a ∈ l, f a = .error e := by
  induction l with
  | nil => exact nomatch h
  | cons a l ih =>
    change (f a >>= fun _ => l.forM f) = _ at h
    obtain h | ⟨_, _, h⟩ := bind_eq_error.mp h
    · exact ⟨a, List.mem_cons_self, h⟩
    · obtain ⟨b, hb, he⟩ := ih h
      exact ⟨b, List.mem_cons_of_mem _ hb, he⟩

/-- **Taking the members of a list one by one fails at the first step that does**, with its
error. -/
theorem mapM_eq_error_iff {f : α → Except Error β} {l : List α} {e : Error} :
    l.mapM f = .error e ↔ ∃ before a after, l = before ++ a :: after ∧
      (∀ b ∈ before, ∃ c, f b = .ok c) ∧ f a = .error e := by
  induction l with
  | nil => exact ⟨fun h => (nomatch h), fun ⟨before, a, after, h, _⟩ => by simp at h⟩
  | cons a l ih =>
    rw [List.mapM_cons, bind_eq_error]
    constructor
    · rintro (ha | ⟨b, ha, h⟩)
      · exact ⟨[], a, l, rfl, List.forall_mem_nil _, ha⟩
      · obtain hl | ⟨_, _, h⟩ := bind_eq_error.mp h
        · obtain ⟨before, x, after, rfl, hbefore, hx⟩ := ih.mp hl
          exact ⟨a :: before, x, after, rfl, List.forall_mem_cons.mpr ⟨⟨b, ha⟩, hbefore⟩, hx⟩
        · exact nomatch h
    · rintro ⟨_ | ⟨y, before⟩, x, after, hl, hbefore, hx⟩
      · obtain ⟨rfl, rfl⟩ := List.cons.inj hl
        exact .inl hx
      · obtain ⟨rfl, rfl⟩ := List.cons.inj hl
        obtain ⟨⟨b, hb⟩, hbefore⟩ := List.forall_mem_cons.mp hbefore
        exact .inr ⟨b, hb, bind_eq_error.mpr (.inl (ih.mpr ⟨before, x, after, rfl, hbefore, hx⟩))⟩

theorem exists_of_mapM_eq_error {f : α → Except Error β} {l : List α} {e : Error}
    (h : l.mapM f = .error e) : ∃ a ∈ l, f a = .error e := by
  obtain ⟨before, a, after, rfl, -, ha⟩ := mapM_eq_error_iff.mp h
  exact ⟨a, List.mem_append_right _ List.mem_cons_self, ha⟩

end FiniteAutomata
