import PaneTriggers.Store.Faulty
import PaneTriggers.Proofs.Ensures

/-!
# What runners rely on in a store

A lawful store has contents, a state for each window. Calls that succeed read and write them as
their names say, and calls that fail leave them as they were; only a merge may fail half done, with
some of its sources already dropped. A merge that is committed step by step is lawful if its steps
are (`commit_stepwise`), so the store in memory and the one with faults both are.
-/

namespace PaneTriggers

/-- The state of each window. -/
abbrev Contents := Window → WindowState

namespace Contents

/-- No window has a state. -/
def empty : Contents := fun _ => .empty

/-- The contents with another state for one window. -/
def put (f : Contents) (w : Window) (s : WindowState) : Contents :=
  fun v => if v = w then s else f v

/-- The contents after a merge into `d`. -/
def commit (f : Contents) (ws : List Window) (d : Window) (s : WindowState) : Contents :=
  fun v => if v = d then s else if v ∈ ws then .empty else f v

@[simp] theorem put_same (f : Contents) (w : Window) (s : WindowState) : f.put w s w = s :=
  if_pos rfl

theorem put_other (f : Contents) {v w : Window} (s : WindowState) (h : v ≠ w) :
    f.put w s v = f v :=
  if_neg h

theorem forall_put {P : Window → WindowState → Prop} {f : Contents} {w : Window} {s : WindowState}
    (hs : P w s) (h : ∀ v, P v (f v)) (v : Window) : P v (f.put w s v) := by
  by_cases hv : v = w
  · rw [hv, put_same]
    exact hs
  · rw [put_other _ _ hv]
    exact h v

end Contents

/-- What is left when a merge fails: some of the sources may be gone. -/
def HalfMerged (ws : List Window) (d : Window) (f g : Contents) : Prop :=
  ∀ v, g v = f v ∨ v ∈ ws ∧ v ≠ d ∧ g v = .empty

/-- A store that has contents, and whose failing calls do not change them. -/
class LawfulStore (σ : Type) [StateStore σ] where
  contents : σ → Contents
  /-- Calls can fail. -/
  Faulty : Prop
  load_ensures : ∀ w f, Ensures (fun m => contents m = f) (StateStore.load w)
    (fun s m => s = f w ∧ contents m = f) fun _ m => Faulty ∧ contents m = f
  save_ensures : ∀ w s f, Ensures (fun m => contents m = f) (StateStore.save w s)
    (fun _ m => contents m = f.put w s) fun _ m => Faulty ∧ contents m = f
  discard_ensures : ∀ w f, Ensures (fun m => contents m = f) (StateStore.discard w)
    (fun _ m => contents m = f.put w .empty) fun _ m => Faulty ∧ contents m = f
  commit_ensures : ∀ ws d s f, Ensures (fun m => contents m = f) (StateStore.commitMerge ws d s)
    (fun _ m => contents m = f.commit ws d s) fun _ m => Faulty ∧ HalfMerged ws d f (contents m)

section Stepwise

variable {σ : Type} {contents : σ → Contents} {F : Prop}
  {discard : Window → EStateM StoreError σ Unit}
  {save : Window → WindowState → EStateM StoreError σ Unit}

theorem discards_ensures (hd : ∀ w f, Ensures (fun m => contents m = f) (discard w)
      (fun _ m => contents m = f.put w .empty) fun _ m => F ∧ contents m = f) :
    ∀ (l : List Window) (f : Contents), Ensures (fun m => contents m = f) (l.forM discard)
      (fun _ m => contents m = fun v => if v ∈ l then .empty else f v)
      fun _ m => F ∧ ∀ v, contents m v = f v ∨ v ∈ l ∧ contents m v = .empty
  | [], f => .pure fun m hm => by simp [hm]
  | w :: l, f => by
    refine .bind ((hd w f).onFail ?_) fun _ =>
      (discards_ensures hd l (f.put w .empty)).mono (fun _ h => h) ?_ ?_
    · intro _ m hx
      obtain ⟨hF, hm⟩ := hx
      exact ⟨hF, fun v => .inl (by rw [hm])⟩
    · intro _ m hm
      rw [hm]
      funext v
      by_cases hl : v ∈ l
      · simp [hl]
      · by_cases hw : v = w <;> simp [hl, hw, Contents.put]
    · intro _ m hx
      obtain ⟨hF, hm⟩ := hx
      refine ⟨hF, fun v => ?_⟩
      rcases hm v with h | ⟨hl, h⟩
      · by_cases hw : v = w
        · rw [hw, Contents.put_same] at h
          exact .inr ⟨by simp [hw], by rw [hw, h]⟩
        · rw [Contents.put_other f _ hw] at h
          exact .inl h
      · exact .inr ⟨List.mem_cons_of_mem _ hl, h⟩

/-- Discarding the sources one by one and then saving the destination commits a merge. -/
theorem commit_stepwise (hd : ∀ w f, Ensures (fun m => contents m = f) (discard w)
      (fun _ m => contents m = f.put w .empty) fun _ m => F ∧ contents m = f)
    (hs : ∀ w s f, Ensures (fun m => contents m = f) (save w s)
      (fun _ m => contents m = f.put w s) fun _ m => F ∧ contents m = f)
    (ws : List Window) (d : Window) (s : WindowState) (f : Contents) :
    Ensures (fun m => contents m = f) (do (ws.filter (· ≠ d)).forM discard; save d s)
      (fun _ m => contents m = f.commit ws d s)
      fun _ m => F ∧ HalfMerged ws d f (contents m) := by
  refine .bind ((discards_ensures hd _ f).onFail ?_) fun _ =>
    (hs d s _).mono (fun _ h => h) ?_ ?_
  · intro _ m hx
    obtain ⟨hF, hm⟩ := hx
    refine ⟨hF, fun v => (hm v).imp_right fun h => ?_⟩
    have hv := List.mem_filter.1 h.1
    exact ⟨hv.1, by simpa using hv.2, h.2⟩
  · intro _ m hm
    rw [hm]
    funext v
    by_cases hv : v = d
    · simp [hv, Contents.put, Contents.commit]
    · by_cases hl : v ∈ ws <;> simp [hv, hl, Contents.put, Contents.commit]
  · intro _ m hx
    obtain ⟨hF, hm⟩ := hx
    refine ⟨hF, fun v => ?_⟩
    rw [hm]
    by_cases hv : v ∈ ws ∧ v ≠ d
    · exact .inr ⟨hv.1, hv.2, by simp [hv.1, hv.2]⟩
    · exact .inl (if_neg (by simpa using hv))

end Stepwise

namespace MemoryStore

theorem contents_put (m : MemoryStore) (w : Window) (s : WindowState) :
    (m.put w s).state = Contents.put m.state w s := by
  funext v
  rw [state_put]
  unfold Contents.put
  simp only [eq_comm]

theorem contents_erase (m : MemoryStore) (w : Window) :
    (m.erase w).state = Contents.put m.state w .empty := by
  funext v
  rw [state_erase]
  unfold Contents.put
  simp only [eq_comm]

theorem save_ensures (w : Window) (s : WindowState) (f : Contents) :
    Ensures (fun m : MemoryStore => m.state = f) (StateStore.save w s)
      (fun _ m => m.state = f.put w s) fun _ m => False ∧ m.state = f :=
  .modify fun m hm => by rw [contents_put, hm]

theorem discard_ensures (w : Window) (f : Contents) :
    Ensures (fun m : MemoryStore => m.state = f) (StateStore.discard w)
      (fun _ m => m.state = f.put w .empty) fun _ m => False ∧ m.state = f :=
  .modify fun m hm => by rw [contents_erase, hm]

instance : LawfulStore MemoryStore where
  contents := state
  Faulty := False
  load_ensures w f := .bind (Q := fun a m => a.state w = f w ∧ m.state = f)
    (.get fun m hm => ⟨by rw [hm], hm⟩) fun _ => .pure fun _ h => h
  save_ensures := save_ensures
  discard_ensures := discard_ensures
  commit_ensures := commit_stepwise discard_ensures save_ensures

end MemoryStore

namespace FaultyStore

theorem load_ensures (w : Window) (f : Contents) :
    Ensures (fun m : FaultyStore => m.memory.state = f) (StateStore.load w)
      (fun s m => s = f w ∧ m.memory.state = f) fun _ m => True ∧ m.memory.state = f := by
  refine .bind (Q := fun a m => a.memory.state = f ∧ m.memory.state = f) (.get fun m hm => ⟨hm, hm⟩)
    fun a => ?_
  by_cases h : w ∈ a.faults.load
  · simp only [h, if_true]
    exact .throw fun m hm => ⟨trivial, hm.2⟩
  · simp only [h, if_false]
    exact .pure fun m hm => ⟨by rw [hm.1], hm.2⟩

theorem save_ensures (w : Window) (s : WindowState) (f : Contents) :
    Ensures (fun m : FaultyStore => m.memory.state = f) (StateStore.save w s)
      (fun _ m => m.memory.state = f.put w s) fun _ m => True ∧ m.memory.state = f := by
  refine .bind (Q := fun a m => a.memory.state = f ∧ m.memory.state = f) (.get fun m hm => ⟨hm, hm⟩)
    fun a => ?_
  by_cases h : w ∈ a.faults.save
  · simp only [h, if_true]
    exact .throw fun m hm => ⟨trivial, hm.2⟩
  · simp only [h, if_false]
    exact fun m hm => by rw [← hm.1]; exact MemoryStore.contents_put _ _ _

theorem discard_ensures (w : Window) (f : Contents) :
    Ensures (fun m : FaultyStore => m.memory.state = f) (StateStore.discard w)
      (fun _ m => m.memory.state = f.put w .empty) fun _ m => True ∧ m.memory.state = f := by
  refine .bind (Q := fun a m => a.memory.state = f ∧ m.memory.state = f) (.get fun m hm => ⟨hm, hm⟩)
    fun a => ?_
  by_cases h : w ∈ a.faults.discard
  · simp only [h, if_true]
    exact .throw fun m hm => ⟨trivial, hm.2⟩
  · simp only [h, if_false]
    exact fun m hm => by rw [← hm.1]; exact MemoryStore.contents_erase _ _

instance : LawfulStore FaultyStore where
  contents m := m.memory.state
  Faulty := True
  load_ensures := load_ensures
  save_ensures := save_ensures
  discard_ensures := discard_ensures
  commit_ensures := commit_stepwise discard_ensures save_ensures

end FaultyStore

end PaneTriggers
