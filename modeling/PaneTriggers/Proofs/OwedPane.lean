import PaneTriggers.Proofs.Changes
import PaneTriggers.Proofs.Invariants
import PaneTriggers.Proofs.ScriptedConduct
import PaneTriggers.Proofs.TreeEffects

/-!
# The pane that is owed at the end of a window

Without merges, a composite whose early child leaves itself open at elements stays in its early
phase until it fires past the end of the window: elements and early firings keep it there
(`EarlyAndLate.onElement_leaves_early`, `EarlyAndLate.onFire_leaves_early`), whatever else its
children do to their own nodes. So a window that had no pane since its end owes one (`Owing`), and
is ready. An early child that marks itself as done takes the composite into its late phase too soon,
and with it the pane away (`Runner.owed_pane_lost`).
-/

namespace PaneTriggers

variable {κ σ : Type} {c : EarlyAndLate κ} {s : Scope} {w w' : WindowState}

/-- The state differs at most at `p`, and the early child was not marked there. -/
def OpenAt (p : Position) (w w' : WindowState) : Prop :=
  NodeAt p w w' ∧ (p = .early → w.finished p = false → w'.finished p = false)

theorem OpenAt.refl (p : Position) (w : WindowState) : OpenAt p w w := ⟨.refl p w, fun _ h => h⟩

namespace EarlyAndLate

/-- Neither the early child nor the root is done. -/
def Early (w : WindowState) : Prop := w.finished .early = false ∧ w.finished .root = false

theorem early_empty : Early .empty := ⟨WindowState.finished_empty, WindowState.finished_empty⟩

theorem Early.openAt {p : Position} (hp : p ≠ .root) (h : Early w) (hw : OpenAt p w w') :
    Early w' := by
  have hsame : ∀ q, q ≠ p → w'.finished q = w.finished q := fun q hq =>
    congrArg NodeState.finished (hw.1 q hq)
  refine ⟨?_, (hsame .root hp.symm).trans h.2⟩
  by_cases he : p = .early
  · subst he
    exact hw.2 rfl h.1
  · exact (hsame .early (Ne.symm he)).trans h.1

theorem Early.fed {merging : Bool} (h : Early w) (hw : c.Fed OpenAt merging w w') : Early w' := by
  cases hw with
  | early _ _ ha => exact h.openAt Position.early_ne_root ha
  | late _ he => rw [h.1] at he; cases he
  | alone _ _ ha => exact h.openAt Position.early_ne_root ha
  | both _ _ ha hb =>
    exact (h.openAt Position.early_ne_root ha).openAt Position.late_ne_root hb

theorem Early.rearmed (h : Early w) (hw : NodeAt .early w w') :
    Early ((w'.clearSubtree .early).setFinished .early false) := by
  have hroot : w'.finished .root = false :=
    (congrArg NodeState.finished (hw .root Position.root_ne_early)).trans h.2
  constructor
  · rw [WindowState.finished_setFinished, if_pos rfl]
  · simp [WindowState.finished_setFinished, WindowState.finished_clearSubtree, hroot]

variable [CustomTrigger κ]

theorem onElement_leaves_early (hc : c.Customs OwnNode) (hopen : c.early.IfCustom LeavesOpen)
    (hs : s.Open) (t : Timestamp) (ws : List Window) (hw : Early w) :
    Ensures (fun p => p.state = w) ((Node.root (.earlyAndLate c)).onElement s t ws)
      (fun _ p => Early p.state) fun _ _ => True := by
  refine (onElement_ensures (A := OpenAt) (F := True) (fun _ _ _ => .refl _) hs
    (forall_leaves ?_ fun t' ht' => ?_) (.inl trivial)).onReturn fun _ p hp => hw.fed hp
  · exact hc.early.and (fun k hk hopen => .of_ok (fun d d' hd =>
      ⟨hk.onElement _ _ _ _ _ hd, fun _ => hopen _ _ _ _ _ hd⟩) (.inl trivial)) hopen
  · refine (hc.late t' ht').mono fun k hk => .of_ok (fun d d' hd => ⟨?_, ?_⟩) (.inl trivial)
    · exact hk.onElement _ _ _ _ _ hd
    · exact fun h => absurd h Position.late_ne_early

theorem onFire_leaves_early (hc : c.early.IfCustom OwnNode) (hs : s.ended = false) (hw : Early w) :
    Ensures (fun p => p.state = w) ((Node.root (.earlyAndLate c)).onFire s)
      (fun _ p => Early p.state) fun _ _ => True := by
  rw [Node.root, Node.onFire_earlyAndLate]
  refine .bind (Q := fun a p => a.state = w ∧ p.state = w) (.get fun p hp => ⟨hp, hp⟩)
    fun a => .of_fact fun ha => ?_
  rw [ha]
  refine .ite (fun he => (Bool.false_ne_true (hw.1.symm.trans he)).elim) fun _ =>
    .ite (fun hs' => (Bool.false_ne_true (hs.symm.trans hs')).elim) fun _ => ?_
  refine (Leaf.rearm_ensures (A := NodeAt) NodeAt.refl (hc.mono fun k hk =>
    .of_ok (fun d d' hd => hk.onOnlyFiring _ _ _ hd) (.inl trivial))).onReturn ?_
  rintro _ p ⟨w₁, h₁, hp⟩
  rw [hp]
  exact hw.rearmed h₁

end EarlyAndLate

/-- The operation merges no windows. -/
def Operation.MergeFree : Operation → Prop
  | .merge _ _ => False
  | _ => True

/-- A pane of `w` came of trying to fire `u`. -/
def paneOf (w u : Window) : Except RunnerError FiringOutcome → Bool
  | .ok (.fired _) => decide (u = w)
  | _ => false

/-- The answer to the operation tells of a pane of the window. -/
def Operation.fires (w : Window) : Operation → Except RunnerError Answer → Bool
  | .fire u, .ok _ => decide (u = w)
  | .fireIfReady u, .ok (.outcome o) => paneOf w u (.ok o)
  | .tick _, .ok (.outcomes os) => os.any fun o => paneOf w o.1 o.2
  | _, _ => false

namespace Runner

/-- The window is in its early phase and not closed. -/
structure Owing (c : EarlyAndLate κ) (w : Window) (v : Seen κ) : Prop where
  root_eq : v.root = .root (.earlyAndLate c)
  early : EarlyAndLate.Early (v.store w)

variable {v v' : Seen κ} {u w : Window} {p : Progress κ}

theorem Owing.of_store (h : Owing c w v) (hroot : v'.root = v.root)
    (hstore : v'.store w = v.store w) : Owing c w v' :=
  ⟨hroot.trans h.root_eq, by rw [hstore]; exact h.early⟩

theorem Owing.interrupted (h : Owing c w v) (hv : v.Interrupted u v') : Owing c w v' := by
  obtain ⟨ts, rfl⟩ := hv
  exact h.of_store rfl rfl

theorem Owing.put (h : Owing c w v) {s : WindowState} (hroot : v'.root = v.root)
    (hstore : v'.store = v.store.put u s) (hs : u = w → EarlyAndLate.Early s) : Owing c w v' := by
  refine ⟨hroot.trans h.root_eq, ?_⟩
  rw [hstore]
  by_cases hu : w = u
  · subst hu
    rw [Contents.put_same]
    exact hs rfl
  · rw [Contents.put_other _ _ hu]
    exact h.early

theorem Owing.foldl_collected (h : Owing c w v) (us : List Window) :
    Owing c w (us.foldl collected v) := by
  obtain ⟨q, a, l, hv, -⟩ := Runner.foldl_collected us v
  rw [hv]
  refine ⟨h.root_eq, ?_⟩
  show EarlyAndLate.Early (if w ∈ us then .empty else v.store w)
  split_ifs
  · exact EarlyAndLate.early_empty
  · exact h.early

variable [CustomTrigger κ]

theorem Owing.accepted (hc : c.Customs OwnNode) (hopen : c.early.IfCustom LeavesOpen)
    (h : Owing c w v) {ws : List Window} {t : Timestamp} (hp : v.taking ws t u = .ok () p) :
    Owing c w (v.accepted t u p) := by
  refine h.put (s := p.state) rfl rfl ?_
  rintro rfl
  unfold taking at hp
  rw [h.root_eq] at hp
  exact (EarlyAndLate.onElement_leaves_early hc hopen (v.scope_open u) t ws h.early).of_ok rfl hp

/-- A firing past the end of the window gives its pane. Any other one leaves it owed. -/
theorem Owing.fired (hc : c.early.IfCustom OwnNode) (h : Owing c w v)
    (hp : v.firing u = .ok () p) :
    w.endedBy (v.fired u p).watermark = true ∧ u = w ∨ Owing c w (v.fired u p) := by
  rw [fired_watermark]
  by_cases hu : w.endedBy v.watermark = true ∧ u = w
  · exact .inl hu
  · refine .inr (h.put (s := p.state) fired_root fired_store ?_)
    rintro rfl
    have hs : (v.scope u).ended = false := Bool.eq_false_iff.2 fun he => hu ⟨he, rfl⟩
    unfold firing at hp
    rw [h.root_eq] at hp
    exact (EarlyAndLate.onFire_leaves_early hc hs h.early).of_ok rfl hp

section Steps

variable [StateStore σ] [LawfulStore σ]

theorem deliver_owing (hc : c.Customs OwnNode) (hopen : c.early.IfCustom LeavesOpen)
    {ws : List Window} {t : Timestamp} :
    Keeps True (Owing c w) (deliver ws t u : RunnerM κ σ Unit) := by
  refine .of_each (f := seen) fun v hv => deliver_ensures.mono (fun _ h => h) ?_ ?_
  · rintro _ r (⟨reason, -, hr⟩ | ⟨-, p, hp, hr⟩)
    · rw [hr]
      exact hv.of_store rfl rfl
    · rw [hr]
      exact hv.accepted hc hopen hp
  · rintro _ r ⟨-, hr⟩
    exact ⟨trivial, hv.interrupted hr⟩

omit [CustomTrigger κ] in
theorem advance_owing {t : Timestamp} :
    Keeps True (Owing c w) (modifyGet (advance t) : RunnerM κ σ (List Window)) :=
  .of_each (f := seen) fun v hv => advance_ensures.onReturn fun _ r hr => by
    rw [hr.2]
    exact hv.of_store (v.advance_root t) (by rw [advance_store])

theorem garbageCollect_owing (hc : c.Customs NeverFails) (hF : ¬LawfulStore.Faulty σ) :
    Keeps True (Owing c w) (garbageCollect : RunnerM κ σ (List Window)) := by
  refine .of_each (f := seen) fun v hv => garbageCollect_ensures.mono (fun _ h => h) ?_ ?_
  · rintro us r ⟨-, hr⟩
    rw [hr]
    exact hv.foldl_collected us
  · rintro _ r (hf | ⟨u, e, he⟩)
    · exact (hF hf).elim
    · exact (readiness_returns (t := .earlyAndLate c) hv.root_eq hc he).elim

theorem onFire_owing (hc : c.early.IfCustom OwnNode) :
    Ensures (fun r : Runner κ σ => Owing c w r.seen) (onFire u)
      (fun _ r => w.endedBy r.watermark = true ∧ u = w ∨ Owing c w r.seen)
      fun _ r => Owing c w r.seen := by
  refine .of_each (f := seen) fun v hv => onFire_ensures.mono (fun _ h => h) ?_ ?_
  · rintro _ r ⟨p, hp, hr⟩
    rw [show r.watermark = r.seen.watermark from rfl, hr]
    exact hv.fired hc hp
  · rintro _ r ⟨-, hr⟩
    exact hv.interrupted hr

theorem fireIfReady_owing (hown : c.Customs OwnNode) (hret : c.Customs NeverFails)
    (hF : ¬LawfulStore.Faulty σ) :
    Ensures (fun r : Runner κ σ => Owing c w r.seen) (fireIfReady u)
      (fun o r => w.endedBy r.watermark = true ∧ paneOf w u (.ok o) = true ∨ Owing c w r.seen)
      fun _ r => Owing c w r.seen := by
  refine .of_each (f := seen) fun v hv => fireIfReady_ensures.mono (fun _ h => h) ?_ ?_
  · rintro o r (⟨-, -, hr⟩ | ⟨-, p, hp, rfl, hr⟩)
    · rw [hr]
      exact .inr hv
    · rw [show r.watermark = r.seen.watermark from rfl, hr]
      exact (hv.fired hown.early hp).imp_left (.imp_right decide_eq_true)
  · rintro _ r ⟨hfail, hr | ⟨p, hp, -⟩⟩
    · exact hv.interrupted hr
    · -- With the window fired, nothing is left that could have failed.
      rcases hfail with hf | ⟨e, he⟩ | ⟨-, e, q, hq⟩
      · exact (hF hf).elim
      · exact (readiness_returns (t := .earlyAndLate c) hv.root_eq hret he).elim
      · rw [hp] at hq
        cases hq

omit [LawfulStore σ] in
theorem endedBy_run (ops : List Operation) {r : Runner κ σ} (h : w.endedBy r.watermark = true) :
    w.endedBy (r.run ops).watermark = true := by
  refine run_lasting (J := fun r => w.endedBy r.watermark = true) (fun r r' hc h => ?_) ops h
  cases hc with
  | advanced t => exact endedBy_advance h
  | _ => exact h

theorem fireEach_owing (hown : c.Customs OwnNode) (hret : c.Customs NeverFails)
    (hF : ¬LawfulStore.Faulty σ) : ∀ us : List Window,
    Ensures (fun r : Runner κ σ => Owing c w r.seen) (fireEach us)
      (fun os r => (w.endedBy r.watermark = true ∧ os.any (fun o => paneOf w o.1 o.2) = true) ∨
        Owing c w r.seen)
      fun _ r => Owing c w r.seen
  | [] => .pure fun _ h => .inr h
  | u :: us => by
    refine .bind (Q := fun o r => w.endedBy r.watermark = true ∧ paneOf w u o = true ∨
      Owing c w r.seen) (attempt_ensures ((fireIfReady_owing hown hret hF).onFail
        fun _ _ h => .inr h)) fun o r hr => ?_
    rcases hr with ⟨hend, hpane⟩ | h
    · -- The windows after it are fired under the same watermark or a later one.
      obtain ⟨os, hos⟩ := fireEach_eq us r
      rw [bind_of_ok hos]
      exact .inl ⟨endedBy_run _ hend, by simp [hpane]⟩
    · refine Ensures.bind (fireEach_owing hown hret hF us) (fun os => .pure fun r h => ?_) r h
      exact h.imp_left fun h => ⟨h.1, by simp [h.2]⟩

/-- An operation without merges fires the window past its end or leaves its pane owed. -/
theorem perform_owing (hown : c.Customs OwnNode) (hret : c.Customs NeverFails)
    (hopen : c.early.IfCustom LeavesOpen) (hF : ¬LawfulStore.Faulty σ) {op : Operation}
    (hop : op.MergeFree) :
    Ensures (fun r : Runner κ σ => Owing c w r.seen) (perform op)
      (fun a r => (w.endedBy r.watermark = true ∧ op.fires w (.ok a) = true) ∨ Owing c w r.seen)
      fun _ r => Owing c w r.seen := by
  have quiet : ∀ {α : Type} {act : RunnerM κ σ α} {f : α → Answer},
      Keeps True (Owing c w) act →
      Ensures (fun r => Owing c w r.seen) (do return f (← act))
        (fun a r => (w.endedBy r.watermark = true ∧ op.fires w (.ok a) = true) ∨
          Owing c w r.seen)
        fun _ r => Owing c w r.seen :=
    fun h => .bind (h.onFail fun _ _ h => h.2) fun _ => .pure fun _ h => .inr h
  cases op with
  | element ws t => exact quiet (.forM fun _ _ => deliver_owing hown hopen)
  | merge ws d => exact hop.elim
  | advance t => exact quiet advance_owing
  | tick t =>
    exact .bind (.bind (advance_owing.onFail fun _ _ h => h.2) fun us =>
      fireEach_owing hown hret hF us) fun _ => .pure fun _ h => h
  | shouldFire u => exact quiet (.reading (fun _ _ _ => trivial) fun _ => shouldFire_ensures)
  | fire u =>
    exact .bind (onFire_owing hown.early) fun _ => .pure fun _ h =>
      h.imp_left (.imp_right decide_eq_true)
  | fireIfReady u => exact .map (fireIfReady_owing hown hret hF)
  | isClosed u => exact quiet (.reading (fun _ _ _ => trivial) fun _ => isClosed_ensures)
  | windowState u => exact quiet (.reading (fun _ _ _ => trivial) fun _ => windowState_ensures)
  | collect => exact quiet (garbageCollect_owing hret hF)

/-- In the run a pane of the window is fired while the watermark is past the end of the window. -/
def paneAfterEnd (w : Window) : Runner κ σ → List Operation → Bool
  | _, [] => false
  | r, op :: ops =>
    -- An operation that fires and moves the watermark moves it first.
    (w.endedBy (r.step op).2.watermark && op.fires w (r.step op).1) ||
      paneAfterEnd w (r.step op).2 ops

/-- A window that owes its pane does so until an operation fires it past its end. -/
theorem step_owing (hown : c.Customs OwnNode) (hret : c.Customs NeverFails)
    (hopen : c.early.IfCustom LeavesOpen) (hF : ¬LawfulStore.Faulty σ) {op : Operation}
    (hop : op.MergeFree) {r : Runner κ σ} (h : Owing c w r.seen)
    (hpane : (w.endedBy (r.step op).2.watermark && op.fires w (r.step op).1) = false) :
    Owing c w (r.step op).2.seen := by
  have howing := perform_owing (w := w) (σ := σ) hown hret hopen hF hop
  cases hx : perform op r with
  | ok a r' =>
    rw [step_of_ok hx] at hpane ⊢
    exact (howing.of_ok h hx).resolve_left fun hfired => by simp [hfired] at hpane
  | error e r' =>
    rw [step_of_error hx]
    exact howing.of_error h hx

theorem run_owing (hown : c.Customs OwnNode) (hret : c.Customs NeverFails)
    (hopen : c.early.IfCustom LeavesOpen) (hF : ¬LawfulStore.Faulty σ) :
    ∀ (ops : List Operation) {r : Runner κ σ}, (∀ op ∈ ops, op.MergeFree) → Owing c w r.seen →
    r.paneAfterEnd w ops = false → Owing c w (r.run ops).seen
  | [], _, _, h, _ => h
  | op :: ops, r, hops, h, hpane => by
    obtain ⟨hop, hrest⟩ := Bool.or_eq_false_iff.1 hpane
    exact run_owing hown hret hopen hF ops (fun o ho => hops o (List.mem_cons_of_mem _ ho))
      (step_owing hown hret hopen hF (hops op List.mem_cons_self) h hop) hrest

end Steps

/-- A composite past the end of the window is ready as long as its early child is not done, and then
if its late child is. -/
theorem ready_iff_of_ended {s : Scope} {w : WindowState} (hs : s.ended = true) {b : Bool}
    (h : (Node.root (.earlyAndLate c)).ready s w = .ok b) :
    b = true ↔ w.finished .early = false ∨
      ∃ t, c.late = some t ∧ Leaf.ready ⟨.late, t⟩ s w = .ok true := by
  cases he : w.finished .early
  · simp [EarlyAndLate.ready_of_ended he hs h]
  · rw [EarlyAndLate.ready_of_late he] at h
    rcases hc : c.late with _ | t
    · rw [hc] at h
      cases h
      simp
    · rw [hc] at h
      have h : Leaf.ready ⟨.late, t⟩ s w = .ok b := h
      simp [h]

/-- Take a window of a run without merges that is open and past its end, and has had no pane since
then. It is ready if its early child is not done, or else if the late child is ready. The first is
guaranteed if the early child does not mark itself as done when it takes an element. -/
theorem owed_pane_ready (hown : c.Customs OwnNode) (hret : c.Customs NeverFails)
    (cfg : RunnerConfig) {ops : List Operation} (hops : ∀ op ∈ ops, op.MergeFree) {w : Window} :
    let first := start (.earlyAndLate c) cfg MemoryStore.empty
    let r := first.run ops
    let s := r.store.state w
    r.closedIn s = false → w.endedBy r.watermark = true → first.paneAfterEnd w ops = false →
    ∃ b, (r.step (.shouldFire w)).1 = .ok (.flag b) ∧
      (b = true ↔ s.finished .early = false ∨
        ∃ t, c.late = some t ∧ Leaf.ready ⟨.late, t⟩ (r.scope w) s = .ok true) ∧
      (c.early.IfCustom LeavesOpen → b = true) := by
  intro first r s hclosed hend hpane
  have hroot : r.root = .root (.earlyAndLate c) := run_root ops first
  have hnofail : ∀ (e : RunnerError) (r' : Runner κ MemoryStore),
      ¬((LawfulStore.Faulty MemoryStore ∨ ∃ e, r.seen.readiness w = .error e) ∧
        r'.seen = r.seen) := by
    rintro _ r' ⟨hf | ⟨e, he⟩, -⟩
    · exact hf
    · exact readiness_returns (t := .earlyAndLate c) hroot hret he
  obtain ⟨b, r', hr', hb, -⟩ := (shouldFire_ensures (v := r.seen)).returns hnofail rfl
  have hready : (Node.root (.earlyAndLate c)).ready (r.scope w) s = .ok b := by
    have hopen : r.seen.readiness w = r.root.ready (r.scope w) s :=
      if_neg (Bool.eq_false_iff.1 hclosed)
    rw [← hroot, ← hopen, hb]
  have hiff := ready_iff_of_ended (s := r.scope w) hend hready
  refine ⟨b, congrArg Prod.fst (step_of_ok (bind_of_ok hr')), hiff, fun hopen => hiff.2 (.inl ?_)⟩
  have hstart : Owing c w first.seen := by
    refine ⟨rfl, ?_⟩
    show EarlyAndLate.Early (MemoryStore.empty.state w)
    rw [MemoryStore.state_empty]
    exact EarlyAndLate.early_empty
  exact (run_owing hown hret hopen (fun hf => hf) ops hops hstart hpane).early.1

/-- An early pane and a firing of another window come before the end of the window, and an element
after it. -/
theorem owed_pane_ready_after_early_pane :
    let c : EarlyAndLate ScriptedTrigger :=
      ⟨.custom { threshold := .clamp 2 }, some (.custom { finishOnElement := true })⟩
    let a : Window := ⟨.clamp 0, .clamp 10⟩
    let b : Window := ⟨.clamp 0, .clamp 5⟩
    let first := start (.earlyAndLate c) { supportsMerging := true, allowedLateness := 5 }
      MemoryStore.empty
    let ops : List Operation := [.element [a, b] (.clamp 3), .element [a] (.clamp 4),
      .fireIfReady a, .tick (.clamp 6), .advance (.clamp 12), .element [a] (.clamp 5)]
    let r := first.run ops
    a ∈ r.active ∧ r.closedIn (r.store.state a) = false ∧ a.endedBy r.watermark = true ∧
      first.paneAfterEnd a ops = false ∧ (r.step (.shouldFire a)).1 = .ok (.flag true) := by
  intro c a b first ops
  have hown : c.Customs OwnNode := .pair ScriptedTrigger.ownNode ScriptedTrigger.ownNode
  have hret : c.Customs NeverFails :=
    .pair (ScriptedTrigger.neverFails rfl) (ScriptedTrigger.neverFails rfl)
  have hops : ∀ op ∈ ops, op.MergeFree := by simp [ops, Operation.MergeFree]
  obtain ⟨flag, hflag, -, hopen⟩ :=
    owed_pane_ready hown hret { supportsMerging := true, allowedLateness := 5 } hops (w := a)
      (by decide +kernel) (by decide +kernel) (by decide +kernel)
  refine ⟨by decide +kernel, by decide +kernel, by decide +kernel, by decide +kernel, ?_⟩
  rw [hflag, hopen (ScriptedTrigger.leavesOpen rfl)]

/-- An early child that marks itself as done with the first element makes the composite skip the
pane at the end of the window, which is open and past its end without having had one. -/
theorem owed_pane_lost :
    let k : ScriptedTrigger := { threshold := .clamp 2, finishOnElement := true }
    let c : EarlyAndLate ScriptedTrigger := ⟨.custom k, none⟩
    let a : Window := ⟨.clamp 0, .clamp 10⟩
    let first := start (.earlyAndLate c) {} MemoryStore.empty
    let ops : List Operation := [.element [a] (.clamp 3), .advance (.clamp 10)]
    let r := first.run ops
    c.Customs OwnNode ∧ c.Customs NeverFails ∧ (∀ op ∈ ops, op.MergeFree) ∧ a ∈ r.active ∧
      r.closedIn (r.store.state a) = false ∧ a.endedBy r.watermark = true ∧
      first.paneAfterEnd a ops = false ∧ (r.step (.shouldFire a)).1 = .ok (.flag false) := by
  intro k c a first ops
  have hops : ∀ op ∈ ops, op.MergeFree := by simp [ops, Operation.MergeFree]
  exact ⟨⟨ScriptedTrigger.ownNode, nofun⟩, ⟨ScriptedTrigger.neverFails rfl, nofun⟩, hops,
    by decide +kernel, by decide +kernel, by decide +kernel, by decide +kernel, rfl⟩

end Runner

end PaneTriggers
