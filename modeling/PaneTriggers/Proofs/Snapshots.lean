import PaneTriggers.Store.Snapshot

/-!
# Snapshots and the stores they describe

Restoring reads a snapshot entry by entry, so of several entries for one key the last decides
(`listedLast`). A snapshot that is taken is canonical: its keys ascend, and it lists neither empty
windows nor default nodes. The canonical snapshots are exactly those that restoring and taking a
snapshot again leaves as they are (`MemoryStore.snapshot_restore_eq_iff`).
-/

namespace PaneTriggers

/-! ## Lists of entries -/

section Listed

variable {α β : Type}

/-- The value of the last entry for `a`. -/
def listedLast [DecidableEq α] (l : List (α × β)) (a : α) : Option β := l.reverse.lookup a

/-- The keys are in strictly ascending order. -/
def Ascending [Ord α] (l : List (α × β)) : Prop := l.Pairwise fun a b => compare a.1 b.1 = .lt

variable {l l' : List (α × β)} {a : α} {b : β}

@[simp] theorem listedLast_nil [DecidableEq α] : listedLast ([] : List (α × β)) a = none := rfl

theorem listedLast_cons [DecidableEq α] (e : α × β) :
    listedLast (e :: l) a = (listedLast l a).or (if e.1 = a then some e.2 else none) := by
  obtain ⟨k, v⟩ := e
  simp only [listedLast, List.reverse_cons, List.lookup_append, List.lookup_cons, List.lookup_nil]
  by_cases hk : k = a
  · simp [hk]
  · simp [beq_false_of_ne (Ne.symm hk), hk]

theorem Ascending.map [Ord α] {γ : Type} {f : α × β → α × γ} (hf : ∀ e, (f e).1 = e.1)
    (h : Ascending l) : Ascending (l.map f) := by
  unfold Ascending at h ⊢
  simpa only [List.pairwise_map, hf] using h

variable [Ord α]

section Ordered

variable [Std.TransOrd α]

theorem ascending_toList (t : Std.ExtTreeMap α β) : Ascending t.toList :=
  Std.ExtTreeMap.ordered_keys_toList

/-- Two ascending lists with the same entries are equal. -/
theorem Ascending.eq_of_mem_iff [Std.LawfulEqOrd α] (h : Ascending l) (h' : Ascending l')
    (hmem : ∀ e, e ∈ l ↔ e ∈ l') : l = l' := by
  have hnodup : ∀ {k : List (α × β)}, Ascending k → k.Nodup := fun hk =>
    hk.imp fun hlt heq => by simp [heq] at hlt
  have hasymm : ∀ a b : α × β, compare a.1 b.1 = .lt → compare b.1 a.1 = .lt → a = b :=
    fun _ _ hab hba => (Std.OrientedCmp.not_lt_of_lt hab hba).elim
  exact ((List.perm_ext_iff_of_nodup (hnodup h) (hnodup h')).2 hmem).eq_of_pairwise
    (fun a b _ _ => hasymm a b) h h'

end Ordered

variable [DecidableEq α] [Std.LawfulEqOrd α]

/-- A key of an ascending list has one entry. -/
theorem Ascending.listedLast_eq_some (h : Ascending l) : listedLast l a = some b ↔ (a, b) ∈ l := by
  induction l generalizing b with
  | nil => simp
  | cons e l ih =>
    obtain ⟨hlt, hl⟩ := List.pairwise_cons.1 h
    have hnot : ∀ v, (e.1, v) ∉ l := fun v hv => by simpa using hlt _ hv
    rw [listedLast_cons, List.mem_cons, Option.or_eq_some_iff, ih hl]
    by_cases he : e.1 = a
    · subst he
      have hnone : listedLast l e.1 = none :=
        Option.eq_none_iff_forall_ne_some.2 fun v hv => hnot v ((ih hl).1 hv)
      simp [hnot, hnone, Prod.ext_iff, eq_comm]
    · have he' : (a, b) ≠ e := fun h => he (h ▸ rfl)
      simp [he, he']

variable [Std.TransOrd α]

theorem listedLast_toList (t : Std.ExtTreeMap α β) : listedLast t.toList a = t[a]? :=
  Option.ext fun _ => (ascending_toList t).listedLast_eq_some.trans
    Std.ExtTreeMap.mem_toList_iff_getElem?_eq_some

/-- An ascending list is what the map with its entries lists. -/
theorem Ascending.toList_eq {t : Std.ExtTreeMap α β} (h : Ascending l)
    (ht : ∀ a, t[a]? = listedLast l a) : t.toList = l :=
  (ascending_toList t).eq_of_mem_iff h fun _ => by
    rw [Std.ExtTreeMap.mem_toList_iff_getElem?_eq_some, ht, h.listedLast_eq_some]

end Listed

/-! ## States -/

namespace WindowState

variable {s : WindowState} {p : Position} {ns : List (Position × NodeState)}

theorem getElem?_eq (s : WindowState) (p : Position) :
    s.nodes[p]? = if s.node p = {} then none else some (s.node p) := by
  have := s.ne_default p
  unfold node
  cases hn : s.nodes[p]? <;> simp_all

theorem node_foldl_write (ns : List (Position × NodeState)) (t : WindowState) :
    (ns.foldl (fun s n => (s.setFinished n.1 n.2.finished).setCounter n.1 n.2.counter) t).node p =
      (listedLast ns p).getD (t.node p) := by
  induction ns generalizing t with
  | nil => rfl
  | cons n ns ih =>
    rw [List.foldl_cons, ih, listedLast_cons, node_setCounter, node_setFinished, node_setFinished,
      if_pos rfl]
    by_cases hp : n.1 = p
    · simp only [if_pos hp]
      cases listedLast ns p <;> rfl
    · simp only [if_neg hp, Option.or_none]

/-- A position has the value of its last entry. -/
theorem node_ofList : (ofList ns).node p = (listedLast ns p).getD {} := by
  unfold ofList
  rw [node_foldl_write, node_empty]

theorem ofList_toList (s : WindowState) : ofList s.toList = s :=
  ext_node fun p => by
    rw [node_ofList]
    exact congrArg (Option.getD · {}) (listedLast_toList s.nodes)

theorem toList_ofList (hns : Ascending ns) (hd : ∀ n ∈ ns, n.2 ≠ {}) : (ofList ns).toList = ns := by
  refine hns.toList_eq fun p => ?_
  rw [getElem?_eq, node_ofList]
  cases hp : listedLast ns p with
  | none => simp
  | some n => simp [hd _ (hns.listedLast_eq_some.1 hp)]

theorem toList_eq_nil : s.toList = [] ↔ s = empty :=
  Std.ExtTreeMap.toList_eq_nil_iff.trans ⟨fun h => WindowState.ext h, fun h => h ▸ rfl⟩

theorem node_ne_default_of_mem {n : Position × NodeState} (hn : n ∈ s.toList) : n.2 ≠ {} :=
  fun hd => s.ne_default n.1 (hd ▸ Std.ExtTreeMap.mem_toList_iff_getElem?_eq_some.1 hn)

end WindowState

/-! ## Stores -/

/-- The states that a snapshot describes, in the order of its entries. A window that is left
without any node is passed over. -/
def Snapshot.rebuilt (s : Snapshot) : List (Window × WindowState) :=
  (s.windows.map fun e => (e.1, WindowState.ofList e.2)).filter fun e => !e.2.isEmpty

/-- Windows and positions ascend, and nothing is listed that a store does not keep. -/
structure Snapshot.Canonical (s : Snapshot) : Prop where
  windows_ascending : Ascending s.windows
  nodes_ascending : ∀ e ∈ s.windows, Ascending e.2
  nodes_ne_nil : ∀ e ∈ s.windows, e.2 ≠ []
  node_ne_default : ∀ e ∈ s.windows, ∀ n ∈ e.2, n.2 ≠ {}

namespace Snapshot

variable {s : Snapshot}

theorem ne_empty_of_mem_rebuilt {e : Window × WindowState} (he : e ∈ s.rebuilt) : e.2 ≠ .empty := by
  have hfull := (List.mem_filter.1 he).2
  rwa [Bool.not_eq_true', Bool.eq_false_iff, ne_eq, WindowState.isEmpty_iff] at hfull

theorem rebuilt_eq_of_forall (h : ∀ e ∈ s.windows, WindowState.ofList e.2 ≠ .empty) :
    s.rebuilt = s.windows.map fun e => (e.1, WindowState.ofList e.2) := by
  refine List.filter_eq_self.2 (List.forall_mem_map.2 fun e he => ?_)
  rw [Bool.not_eq_true', Bool.eq_false_iff, ne_eq, WindowState.isEmpty_iff]
  exact h e he

namespace Canonical

theorem toList_ofList (hs : s.Canonical) {e : Window × List (Position × NodeState)}
    (he : e ∈ s.windows) : (WindowState.ofList e.2).toList = e.2 :=
  WindowState.toList_ofList (hs.nodes_ascending e he) (hs.node_ne_default e he)

theorem rebuilt_eq (hs : s.Canonical) :
    s.rebuilt = s.windows.map fun e => (e.1, WindowState.ofList e.2) :=
  rebuilt_eq_of_forall fun e he hempty =>
    hs.nodes_ne_nil e he ((hs.toList_ofList he).symm.trans (WindowState.toList_eq_nil.2 hempty))

end Canonical

end Snapshot

namespace MemoryStore

variable {m n : MemoryStore} {w : Window} {s : Snapshot}

theorem getElem?_eq (m : MemoryStore) (w : Window) :
    m.states[w]? = if m.state w = .empty then none else some (m.state w) := by
  have := m.ne_empty w
  unfold state
  cases hs : m.states[w]? <;> simp_all

theorem state_foldl_restoreEntry (ws : List (Window × List (Position × NodeState)))
    (m : MemoryStore) : (ws.foldl restoreEntry m).state w =
      (listedLast (Snapshot.rebuilt ⟨ws⟩) w).getD (m.state w) := by
  induction ws generalizing m with
  | nil => rfl
  | cons e ws ih =>
    rw [List.foldl_cons, ih]
    simp only [restoreEntry, Snapshot.rebuilt, List.map_cons, List.filter_cons]
    cases hs : (WindowState.ofList e.2).isEmpty with
    | true => rfl
    | false =>
      simp only [Bool.not_false, if_true, Bool.false_eq_true, if_false, listedLast_cons, state_put]
      by_cases hw : e.1 = w
      · simp only [if_pos hw]
        cases listedLast _ w <;> rfl
      · simp only [if_neg hw, Option.or_none]

/-- A window has the last of its states that is not empty. -/
theorem state_restore : (restore s).state w = (listedLast s.rebuilt w).getD .empty := by
  unfold restore
  rw [state_foldl_restoreEntry, state_empty]

theorem ne_empty_of_mem {e : Window × WindowState} (he : e ∈ m.toList) : e.2 ≠ .empty :=
  fun hs => m.ne_empty e.1 (hs ▸ Std.ExtTreeMap.mem_toList_iff_getElem?_eq_some.1 he)

theorem rebuilt_snapshot (m : MemoryStore) : m.snapshot.rebuilt = m.toList := by
  have hmap : m.toList.map ((fun e => (e.1, WindowState.ofList e.2)) ∘
      fun e => (e.1, e.2.toList)) = m.toList :=
    (List.map_congr_left fun e _ => by simp [WindowState.ofList_toList]).trans (List.map_id _)
  rw [Snapshot.rebuilt_eq_of_forall, snapshot, List.map_map, hmap]
  refine List.forall_mem_map.2 fun e he => ?_
  rw [WindowState.ofList_toList]
  exact ne_empty_of_mem he

theorem restore_snapshot (m : MemoryStore) : restore m.snapshot = m :=
  ext_load fun w => by
    rw [state_restore, rebuilt_snapshot]
    exact congrArg (Option.getD · .empty) (listedLast_toList m.states)

/-- Two stores that load the same have the same snapshot, and the other way round. -/
theorem snapshot_eq_iff : m.snapshot = n.snapshot ↔ ∀ w, m.state w = n.state w := by
  refine ⟨fun h w => ?_, fun h => congrArg snapshot (ext_load h)⟩
  rw [← restore_snapshot m, h, restore_snapshot]

theorem snapshot_canonical (m : MemoryStore) : m.snapshot.Canonical where
  windows_ascending := (ascending_toList m.states).map fun _ => rfl
  nodes_ascending := List.forall_mem_map.2 fun e _ => ascending_toList e.2.nodes
  nodes_ne_nil := List.forall_mem_map.2 fun _ he =>
    mt WindowState.toList_eq_nil.1 (ne_empty_of_mem he)
  node_ne_default := List.forall_mem_map.2 fun _ _ _ => WindowState.node_ne_default_of_mem

theorem toList_restore (h : Ascending s.rebuilt) : (restore s).toList = s.rebuilt := by
  refine h.toList_eq fun w => ?_
  rw [getElem?_eq, state_restore]
  cases hw : listedLast s.rebuilt w with
  | none => simp
  | some t => simp [Snapshot.ne_empty_of_mem_rebuilt (h.listedLast_eq_some.1 hw)]

theorem snapshot_restore (hs : s.Canonical) : (restore s).snapshot = s := by
  have hasc : Ascending s.rebuilt := hs.rebuilt_eq ▸ hs.windows_ascending.map fun _ => rfl
  have hmap : s.windows.map ((fun e => (e.1, e.2.toList)) ∘
      fun e => (e.1, WindowState.ofList e.2)) = s.windows :=
    (List.map_congr_left fun e he => by simp [hs.toList_ofList he]).trans (List.map_id _)
  unfold snapshot
  rw [toList_restore hasc, hs.rebuilt_eq, List.map_map, hmap]

/-- The canonical snapshots are those that come back as they were. -/
theorem snapshot_restore_eq_iff : (restore s).snapshot = s ↔ s.Canonical :=
  ⟨fun h => h ▸ snapshot_canonical _, snapshot_restore⟩

end MemoryStore

end PaneTriggers
