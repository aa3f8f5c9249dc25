import PaneTriggers.Proofs.JsonRoundTrip
import PaneTriggers.Proofs.Snapshots

/-!
# A checkpoint loses nothing

A store in memory is what its checkpoint describes (`MemoryStore.ofCheckpoint?_checkpoint`): the
document of a snapshot is read back field by field, and its text is read back as the document, since
all its numbers fit 64 bits and it is six arrays and objects deep. With what restoring does to any
snapshot, this makes checkpoints canonical (`MemoryStore.checkpoints_canonical`).
-/

namespace PaneTriggers

/-! ## Documents -/

/-- Items that are each read back are read back together. -/
theorem mapM_written {α β γ : Type} {read? : β → Option γ} {write : α → β} {f : α → γ}
    (h : ∀ a, read? (write a) = some (f a)) (l : List α) :
    (l.map write).mapM read? = some (l.map f) := by
  induction l with
  | nil => rfl
  | cons a l ih => simp [h, ih]

theorem Window.ofJson?_toJson (w : Window) : Window.ofJson? w.toJson = some w := by
  have htime : ∀ t : Timestamp, Timestamp.ofJson? (.int t.millis) = some t := fun t =>
    dif_pos ⟨t.least_le, t.le_greatest⟩
  have hrecord : w.toJson.record? ["start", "end"] =
      some [.int w.start.millis, .int w.stop.millis] := rfl
  unfold Window.ofJson?
  rw [hrecord]
  simp [htime]

theorem Position.ofJson?_toJson (p : Position) : Position.ofJson? p.toJson = some p := by
  have hindex : ∀ i : UInt32, (Json.int i.toNat).natUpTo? 4294967295 = some i.toNat := fun i => by
    have := i.toNat_lt
    simp [Json.natUpTo?, Json.int?]
    omega
  have hitems : p.toJson.items? = some (p.path.map fun i => .int i.toNat) := rfl
  unfold Position.ofJson?
  simp [hitems, mapM_written hindex, Function.comp_def]

namespace Snapshot

theorem nodeOfJson?_nodeToJson (n : Position × NodeState) :
    nodeOfJson? (nodeToJson n) = some n := by
  have hposition : (nodeToJson n).get? "position" = some n.1.toJson := rfl
  have hfinished : (nodeToJson n).get? "finished" = some (.bool n.2.finished) := rfl
  have hcounter : (nodeToJson n).get? "counter" = some (.int n.2.counter.toNat) := rfl
  have hword : (Json.int n.2.counter.toNat).word? >>= Counter.ofNat? = some n.2.counter := by
    have := n.2.counter.le_greatest
    have hle : (n.2.counter.toNat : Int) ≤ 18446744073709551615 := by omega
    simp [Json.word?, Json.natUpTo?, Json.int?, Counter.ofNat?, hle, this]
  unfold nodeOfJson?
  simp only [hposition, hfinished, hcounter, Option.bind_eq_bind, Option.bind_some,
    Position.ofJson?_toJson, Json.bool?] at hword ⊢
  rw [hword]
  rfl

theorem entryOfJson?_entryToJson (e : Window × List (Position × NodeState)) :
    entryOfJson? (entryToJson e) = some e := by
  have hrecord : (entryToJson e).record? ["window", "nodes"] =
      some [e.1.toJson, .arr (e.2.map nodeToJson)] := rfl
  unfold entryOfJson?
  rw [hrecord]
  simp [Window.ofJson?_toJson, Json.items?, mapM_written (f := id) nodeOfJson?_nodeToJson]

theorem ofJson?_toJson (s : Snapshot) : ofJson? s.toJson = some s := by
  have hrecord : s.toJson.record? ["windows"] = some [.arr (s.windows.map entryToJson)] := rfl
  unfold ofJson?
  rw [hrecord]
  simp [Json.items?, mapM_written (f := id) entryOfJson?_entryToJson]

end Snapshot

/-! ## Texts -/

open Json (Fits)

variable {d : Nat}

theorem Window.fits (w : Window) : Fits (d + 1) w.toJson := by
  have htime : ∀ t : Timestamp, Fits d (.int t.millis) := fun t => by
    have := t.least_le
    have := t.le_greatest
    exact .int (by omega) (by omega)
  refine .obj fun f hf => ?_
  simp only [List.mem_cons, List.not_mem_nil, or_false] at hf
  rcases hf with rfl | rfl
  · exact htime w.start
  · exact htime w.stop

theorem Position.fits (p : Position) : Fits (d + 1) p.toJson := by
  refine .arr fun v hv => ?_
  obtain ⟨i, -, rfl⟩ := List.mem_map.1 hv
  have := i.toNat_lt
  exact .int (by omega) (by omega)

namespace Snapshot

theorem fits_node (n : Position × NodeState) : Fits (d + 2) (nodeToJson n) := by
  refine .obj fun f hf => ?_
  simp only [List.mem_cons, List.not_mem_nil, or_false] at hf
  rcases hf with rfl | rfl | rfl
  · exact n.1.fits
  · exact .bool _
  · have := n.2.counter.le_greatest
    exact .int (by omega) (by omega)

theorem fits_entry (e : Window × List (Position × NodeState)) : Fits (d + 4) (entryToJson e) := by
  refine .obj fun f hf => ?_
  simp only [List.mem_cons, List.not_mem_nil, or_false] at hf
  rcases hf with rfl | rfl
  · exact e.1.fits
  · refine .arr fun v hv => ?_
    obtain ⟨n, -, rfl⟩ := List.mem_map.1 hv
    exact fits_node n

theorem fits (s : Snapshot) : Fits (d + 6) s.toJson := by
  refine .obj fun f hf => ?_
  obtain rfl := List.mem_singleton.1 hf
  refine .arr fun v hv => ?_
  obtain ⟨e, -, rfl⟩ := List.mem_map.1 hv
  exact fits_entry e

end Snapshot

/-- A store is what its checkpoint describes. -/
theorem MemoryStore.ofCheckpoint?_checkpoint (m : MemoryStore) :
    ofCheckpoint? m.checkpoint = some m := by
  have hread : Json.parse? m.checkpoint = some m.snapshot.toJson :=
    Json.parse?_text m.snapshot.fits
  unfold ofCheckpoint?
  simp [hread, Snapshot.ofJson?_toJson, restore_snapshot]

/-- A checkpoint gives back its store, whose snapshot is canonical and told by what it loads. Of a
snapshot in any form, each window gets its last state that is not empty and each position of a state
its last value, and what is left is listed canonically. -/
theorem MemoryStore.checkpoints_canonical :
    (∀ m : MemoryStore, ofCheckpoint? m.checkpoint = some m ∧ m.snapshot.Canonical ∧
      ∀ n : MemoryStore, m.snapshot = n.snapshot ↔ ∀ w, m.state w = n.state w) ∧
    ∀ s : Snapshot, (restore s).snapshot.Canonical ∧ ((restore s).snapshot = s ↔ s.Canonical) ∧
      (∀ w, (restore s).state w = (listedLast s.rebuilt w).getD .empty) ∧
      ∀ ns p, (WindowState.ofList ns).node p = (listedLast ns p).getD {} :=
  ⟨fun m => ⟨ofCheckpoint?_checkpoint m, snapshot_canonical m, fun _ => snapshot_eq_iff⟩,
    fun _ => ⟨snapshot_canonical _, snapshot_restore_eq_iff, fun _ => state_restore,
      fun _ _ => WindowState.node_ofList⟩⟩

end PaneTriggers
