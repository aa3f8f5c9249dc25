import PaneTriggers.Proofs.Changes
import PaneTriggers.Proofs.Checkpoints
import PaneTriggers.Proofs.Lockstep

/-!
# Going on from a checkpoint

No operation lets the timers, the active windows or anything that is recorded and counted decide
what it does to a window: two runners that differ in no more than that (`Runner.Alike`) answer
alike and stay so. Only a collection, which goes through the active windows, and a tick, which
fires the windows that the timers wake, are excepted. So a runner that starts over the store that a
checkpoint describes, and is given the watermark, goes on as the one that the checkpoint was taken
of (`Runner.decisions_after_checkpoint`).
-/

namespace PaneTriggers

/-- The operation goes by neither timers nor active windows. -/
def Operation.Untimed : Operation → Prop
  | .tick _ | .collect => False
  | _ => True

instance : DecidablePred Operation.Untimed := fun op => by
  cases op <;> unfold Operation.Untimed <;> infer_instance

/-- The answer, but for the windows in it. -/
def Answer.decision : Answer → Answer
  | .windows _ => .done
  | a => a

namespace Runner

variable {κ σ : Type}

/-- The runners differ at most in timers, active windows, and what is recorded and counted. -/
inductive Alike : Runner κ σ → Runner κ σ → Prop where
  | intro (r : Runner κ σ) (timers : TimerQueue) (active : Std.ExtTreeSet Window)
      (log : RotatingLog) (telemetry : Telemetry) (calls : List (Call κ)) :
      Alike r { r with
        timers := timers, active := active, log := log, telemetry := telemetry, calls := calls }

/-- From alike runners, both operations answer what `V` relates, or fail in the same way, and leave
alike runners. -/
abbrev AnswersAlike {α β : Type} (x : RunnerM κ σ α) (y : RunnerM κ σ β) (V : α → β → Prop) :
    Prop := InStep Alike x y V

variable {w : Window} {s : WindowState}

theorem Alike.of_eq {r r' : Runner κ σ} (hroot : r'.root = r.root) (hstore : r'.store = r.store)
    (hwatermark : r'.watermark = r.watermark) (hmerging : r'.supportsMerging = r.supportsMerging)
    (hlateness : r'.allowedLateness = r.allowedLateness) : Alike r r' := by
  cases r
  cases r'
  dsimp only at hroot hstore hwatermark hmerging hlateness
  subst hroot hstore hwatermark hmerging hlateness
  exact .intro _ _ _ _ _ _

theorem Alike.store_eq {r r' : Runner κ σ} (h : Alike r r') : r'.store = r.store := by
  cases h
  rfl

theorem Alike.foldl_retire : ∀ (ws : List Window) {r r' : Runner κ σ}, Alike r r' →
    Alike (ws.foldl retire r) (ws.foldl retire r')
  | [], _, _, h => h
  | w :: ws, r, _, .intro .. => foldl_retire ws (.intro (r.retire w) _ _ _ _ _)

theorem Alike.advance {t : Timestamp} {r r' : Runner κ σ} (h : Alike r r') :
    Alike (r.advance t).2 (r'.advance t).2 := by
  cases h
  unfold Runner.advance
  dsimp only
  split_ifs
  · exact .of_eq rfl rfl rfl rfl rfl
  · exact .of_eq rfl rfl rfl rfl rfl

theorem usingStore_alike {α : Type} (act : EStateM StoreError σ α) :
    AnswersAlike (κ := κ) (usingStore act) (usingStore act) Eq := by
  rintro r _ ⟨⟩
  unfold usingStore
  dsimp only
  cases act r.store with
  | ok a m => exact ⟨rfl, .of_eq rfl rfl rfl rfl rfl⟩
  | error e m => exact ⟨rfl, .of_eq rfl rfl rfl rfl rfl⟩

section Steps

variable [StateStore σ]

theorem alike_lockstep : Lockstep (Alike : Runner κ σ → Runner κ σ → Prop) w where
  root_eq h := by cases h; rfl
  watermark_eq h := by cases h; rfl
  supportsMerging_eq h := by cases h; rfl
  allowedLateness_eq h := by cases h; rfl
  windowState := usingStore_alike _
  save _ := usingStore_alike _
  noted _ _ _ _ _ _ _ _ h := by cases h; exact .of_eq rfl rfl rfl rfl rfl
  withTimers _ h := by cases h; exact .of_eq rfl rfl rfl rfl rfl
  activated h := by cases h; exact .of_eq rfl rfl rfl rfl rfl

theorem loadSources_alike : ∀ ws : List Window,
    AnswersAlike (loadSources ws : RunnerM κ σ (List MergeSource)) (loadSources ws) Eq
  | [] => .pure rfl
  | _ :: ws => .bind_eq (usingStore_alike _) fun _ =>
      .bind_eq (loadSources_alike ws) fun _ => .pure rfl

variable [CustomTrigger κ]

theorem fate_alike {r r' : Runner κ σ} (h : Alike r r') : r.fate w = r'.fate w := by
  have hfound := (alike_lockstep (w := w)).examine r r' h
  unfold fate
  rcases hx : examine w r with ⟨found, _⟩ | _ <;> rcases hx' : examine w r' with ⟨found', _⟩ | _ <;>
    rw [hx, hx'] at hfound
  · obtain rfl := hfound.1
    cases found <;> rfl
  · exact hfound.elim
  · exact hfound.elim

theorem deliver_alike {ws : List Window} {t : Timestamp} :
    AnswersAlike (deliver ws t w : RunnerM κ σ Unit) (deliver ws t w) Eq := by
  refine alike_lockstep.deliver ?_
  rintro r _ ⟨⟩ scope
  exact .refl _

theorem merge_alike {ws : List Window} {d : Window} :
    AnswersAlike (merge ws d : RunnerM κ σ Unit) (merge ws d) Eq := by
  refine .bind_eq (loadSources_alike ws) fun ms =>
    .bind_eq (alike_lockstep.evaluating ?_ _) fun s => ?_
  · rintro r _ ⟨⟩ scope
    exact .refl _
  refine .bind .get ?_
  rintro r _ ⟨⟩
  refine .bind .get ?_
  rintro r' _ ⟨⟩
  refine .bind (usingStore_alike _) fun _ _ _ => .modify fun r₁ r₂ h => ?_
  have hretired := h.foldl_retire (ws.filter (· ≠ d))
  generalize (ws.filter (· ≠ d)).foldl retire r₁ = r₁' at hretired
  generalize (ws.filter (· ≠ d)).foldl retire r₂ = r₂' at hretired
  cases hretired
  exact .of_eq rfl rfl rfl rfl rfl

theorem perform_alike {op : Operation} (hop : op.Untimed) :
    AnswersAlike (perform op : RunnerM κ σ Answer) (perform op) fun a b =>
      a.decision = b.decision := by
  have answering : ∀ {β : Type} {act : RunnerM κ σ β} {f : β → Answer}, AnswersAlike act act Eq →
      AnswersAlike (do return f (← act)) (do return f (← act)) fun a b =>
        a.decision = b.decision := fun h => by
    exact .bind_eq h fun _ => .pure rfl
  cases op with
  | element ws t => exact answering (.forM fun _ _ => deliver_alike)
  | merge ws d => exact answering merge_alike
  | advance t =>
    -- The windows that are woken may differ.
    refine .bind (V := fun _ _ => True) (fun _ _ h => ⟨trivial, h.advance⟩) fun _ _ _ => .pure rfl
  | tick t => exact hop.elim
  | shouldFire w => exact answering alike_lockstep.shouldFire
  | fire w => exact answering alike_lockstep.onFire
  | fireIfReady w => exact answering alike_lockstep.fireIfReady
  | isClosed w => exact answering alike_lockstep.isClosed
  | windowState w => exact answering (usingStore_alike _)
  | collect => exact hop.elim

/-! ## Runs -/

/-- What the operations of a run decide, one after the other: what they answer, but for the windows
in it, and the store that they leave. -/
def decisions (r : Runner κ σ) : List Operation → List (Except RunnerError Answer × σ)
  | [] => []
  | op :: ops =>
    ((r.step op).1.map Answer.decision, (r.step op).2.store) :: decisions (r.step op).2 ops

theorem step_alike {op : Operation} (hop : op.Untimed) {r r' : Runner κ σ} (h : Alike r r') :
    (r.step op).1.map Answer.decision = (r'.step op).1.map Answer.decision ∧
      Alike (r.step op).2 (r'.step op).2 :=
  step_inStep (f := fun a => a.map Answer.decision) (perform_alike hop)
    (fun _ _ => congrArg Except.ok) h

theorem visitsFrom_alike (assigned : List Window) (t : Timestamp) :
    ∀ (ws : List Window) {r r' : Runner κ σ}, Alike r r' →
      (visitsFrom assigned t r ws).map (fun x => (x.2, x.1.fate x.2)) =
        (visitsFrom assigned t r' ws).map fun x => (x.2, x.1.fate x.2)
  | [], _, _, _ => rfl
  | w :: ws, r, r', h => by
    have hdeliver : AnswersAlike (deliver assigned t w : RunnerM κ σ Unit) _ _ := deliver_alike
    have hdeliver := hdeliver r r' h
    rcases hx : deliver assigned t w r with ⟨_, r₁⟩ | _ <;>
      rcases hx' : deliver assigned t w r' with ⟨_, r₁'⟩ | _ <;> rw [hx, hx'] at hdeliver
    · rw [visitsFrom_of_ok hx, visitsFrom_of_ok hx', List.map_cons, List.map_cons, fate_alike h,
        visitsFrom_alike assigned t ws hdeliver.2]
    · exact hdeliver.elim
    · exact hdeliver.elim
    · rw [visitsFrom_of_error hx, visitsFrom_of_error hx', List.map_cons, List.map_cons,
        fate_alike h]

theorem fates_cons (r : Runner κ σ) (op : Operation) (ops : List Operation) : r.fates (op :: ops) =
    ((r.visitsOf op).map fun x => (x.2, x.1.fate x.2)) ++ (r.step op).2.fates ops :=
  List.map_append

/-- Alike runners decide alike, and take or drop the same elements. -/
theorem run_alike : ∀ {ops : List Operation}, (∀ op ∈ ops, op.Untimed) →
    ∀ {r r' : Runner κ σ}, Alike r r' → r.decisions ops = r'.decisions ops ∧
      r.fates ops = r'.fates ops
  | [], _, _, _, _ => ⟨rfl, rfl⟩
  | op :: ops, hops, r, r', h => by
    obtain ⟨hanswer, hstep⟩ := step_alike (hops op List.mem_cons_self) h
    obtain ⟨hdecisions, hfates⟩ := run_alike (fun o ho => hops o (List.mem_cons_of_mem _ ho)) hstep
    have hvisits : (r.visitsOf op).map (fun x => (x.2, x.1.fate x.2)) =
        (r'.visitsOf op).map fun x => (x.2, x.1.fate x.2) := by
      cases op with
      | element ws t => exact visitsFrom_alike ws t ws h
      | _ => rfl
    unfold decisions
    rw [fates_cons, fates_cons, hanswer, hstep.store_eq, hdecisions, hfates, hvisits]
    exact ⟨rfl, rfl⟩

/-! ## From checkpoints -/

/-- A runner at the start that is given the store and the watermark of another, which started with
the same tree and settings, is like that one. -/
theorem alike_of_resumed (t : Trigger κ) (cfg : RunnerConfig) (store : σ) (ops : List Operation) :
    let r := (start t cfg store).run ops
    Alike r ((start t cfg r.store).run (r.watermark.toList.map .advance)) := by
  intro r
  have hroot : r.root = .root t := run_root ops _
  obtain ⟨hmerging, hlateness⟩ := run_settings ops (start t cfg store)
  cases hw : r.watermark with
  | none => exact .of_eq hroot.symm rfl hw.symm hmerging.symm hlateness.symm
  | some now => exact .of_eq hroot.symm rfl hw.symm hmerging.symm hlateness.symm

end Steps

variable [CustomTrigger κ]

/-- A runner over a store in memory decides as one that starts over what its checkpoint describes
and is given its watermark. -/
theorem decisions_after_checkpoint (t : Trigger κ) (cfg : RunnerConfig) (m : MemoryStore)
    (before : List Operation) {after : List Operation} (hafter : ∀ op ∈ after, op.Untimed) :
    let r := (start t cfg m).run before
    ∃ m', MemoryStore.ofCheckpoint? r.store.checkpoint = some m' ∧
      let r' := (start t cfg m').run (r.watermark.toList.map .advance)
      r'.decisions after = r.decisions after ∧ r'.fates after = r.fates after := by
  intro r
  refine ⟨r.store, r.store.ofCheckpoint?_checkpoint, ?_⟩
  obtain ⟨hdecisions, hfates⟩ := run_alike hafter (alike_of_resumed t cfg m before)
  exact ⟨hdecisions.symm, hfates.symm⟩

/-- The checkpoint is taken of a window after its on-time pane and of one that has had an element.
Both take another element, are fired and merged, and what they are merged into ends. -/
theorem decisions_after_checkpoint_across_phases :
    let k : ScriptedTrigger := { threshold := .clamp 2 }
    let a : Window := ⟨.clamp 0, .clamp 100⟩
    let b : Window := ⟨.clamp 50, .clamp 150⟩
    let d : Window := ⟨.clamp 0, .clamp 150⟩
    let t : Trigger ScriptedTrigger := .earlyAndLate ⟨.custom k, some (.custom {})⟩
    let cfg : RunnerConfig := { supportsMerging := true, allowedLateness := 100 }
    let before : List Operation := [.element [a] (.clamp 10), .advance (.clamp 101),
      .fireIfReady a, .element [b] (.clamp 105)]
    let after : List Operation := [.element [a, b] (.clamp 60), .fireIfReady a, .fireIfReady b,
      .merge [a, b] d, .advance (.clamp 160), .fire d, .isClosed d, .advance (.clamp 300),
      .element [d] (.clamp 70)]
    let r := (start t cfg .empty).run before
    ∃ m, MemoryStore.ofCheckpoint? r.store.checkpoint = some m ∧
      let r' := (start t cfg m).run [.advance (.clamp 101)]
      r'.decisions after = r.decisions after ∧
        r'.fates after = [(a, .handed), (b, .handed), (d, .dropped .pastAllowedLateness)] := by
  intro k a b d t cfg before after r
  have hafter : ∀ op ∈ after, op.Untimed := by decide
  obtain ⟨m, hm, hdecisions, hfates⟩ := decisions_after_checkpoint t cfg .empty before hafter
  have hwatermark : r.watermark = some (.clamp 101) := by decide +kernel
  rw [hwatermark] at hdecisions hfates
  refine ⟨m, hm, hdecisions, hfates.trans ?_⟩
  decide +kernel

end Runner

end PaneTriggers
