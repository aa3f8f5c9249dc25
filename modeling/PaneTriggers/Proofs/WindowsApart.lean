import PaneTriggers.Proofs.Receptive
import PaneTriggers.Proofs.Slices

/-!
# Windows apart

Without merges a window goes its own way: a run shows of it what is shown by the part of the run
that is about it (`Runner.windows_apart`). Only a failure reaches further, for an element that fails
at one of its windows does not come to those after it (`Runner.failed_element_misses_window`).
-/

namespace PaneTriggers

namespace Operation

/-- What there is of the operation for a window: elements lose their other windows, and what asks
about or fires other windows is left out. -/
def on? (w : Window) : Operation → Option Operation
  | .element us t => some (.element (us.filter (· = w)) t)
  | .shouldFire u => if u = w then some (.shouldFire u) else none
  | .fire u => if u = w then some (.fire u) else none
  | .fireIfReady u => if u = w then some (.fireIfReady u) else none
  | .isClosed u => if u = w then some (.isClosed u) else none
  | .windowState u => if u = w then some (.windowState u) else none
  | op => some op

/-- What the answer to an operation says about a window: of a list of windows, whether it is in it.
Elements are answered nothing. -/
def answerAt (w : Window) : Operation → Except RunnerError Answer → Except RunnerError Answer
  | .element _ _, _ => .ok .done
  | _, .ok (.windows us) => .ok (.flag (decide (w ∈ us)))
  | _, a => a

end Operation

namespace Runner

variable {κ σ : Type} [StateStore σ] [LawfulStore σ] [CustomTrigger κ]

/-- What there is of an operation for a window, without the visits that an element does not make
because it fails before. -/
def ownPart? (r : Runner κ σ) (w : Window) (op : Operation) : Option Operation :=
  match op with
  | .element us t => some (.element (((r.visitsOf (.element us t)).map Prod.snd).filter (· = w)) t)
  | op => op.on? w

/-- What there is of a run for a window. -/
def ownRun (r : Runner κ σ) (w : Window) : List Operation → List Operation
  | [] => []
  | op :: ops => (r.ownPart? w op).toList ++ ownRun (r.step op).2 w ops

/-- What a run shows of a window: after each operation that there is something of for the window,
what its answer says about the window, and the slice. -/
def shown (r : Runner κ σ) (w : Window) :
    List Operation → List (Except RunnerError Answer × Slice κ)
  | [] => []
  | op :: ops =>
    let r' := (r.step op).2
    ((op.on? w).toList.map fun _ => (op.answerAt w (r.step op).1, r'.seen.slice w)) ++
      shown r' w ops

variable {t : Trigger κ} {w : Window} {r r' : Runner κ σ}

theorem step_slice {op : Operation} (hact : SlicesAlike (σ := σ) t w (perform op) (perform op)
      fun a b => op.answerAt w (.ok a) = op.answerAt w (.ok b)) (h : SameSlice t w r r') :
    op.answerAt w (r.step op).1 = op.answerAt w (r'.step op).1 ∧
      SameSlice t w (r.step op).2 (r'.step op).2 :=
  step_inStep (f := op.answerAt w) hact (fun _ _ h => h) h

theorem LeavesSlice.step {op : Operation} {u : Window} (hu : u ≠ w)
    (h : LeavesSlice u w (perform op : RunnerM κ σ Answer)) (hr : SameSlice t w r r') :
    SameSlice t w (r.step op).2 r' := by
  obtain ⟨hroot, hslice⟩ := step_ensures (h hu r.seen) rfl
  exact ⟨hroot.trans hr.1, hslice.trans hr.2⟩

/-- An element that comes to windows does to the slice what it does when it comes to the window
alone, as often as it has come there. -/
theorem delivered_slice (hF : ¬LawfulStore.Faulty σ) (ht : t.Customs IgnoresAssigned)
    (assigned assigned' : List Window) (at' : Timestamp) :
    ∀ (us : List Window) {r r' : Runner κ σ}, SameSlice t w r r' →
      SameSlice t w (delivered assigned at' us r) (delivered assigned' at'
        (((visitsFrom assigned at' r us).map Prod.snd).filter (· = w)) r')
  | [], _, _, h => h
  | u :: us, r, r', h => by
    by_cases hu : u = w
    · rw [hu]
      have hdeliver : SlicesAlike (σ := σ) t w (deliver assigned at' w)
        (deliver assigned' at' w) Eq := deliver_slice hF ht
      have hdeliver := hdeliver r r' h
      rcases hx : deliver assigned at' w r with ⟨_, r₁⟩ | ⟨e, r₁⟩ <;>
        rcases hx' : deliver assigned' at' w r' with ⟨_, r₁'⟩ | ⟨e', r₁'⟩ <;>
        rw [hx, hx'] at hdeliver
      · rw [delivered_of_ok hx, visitsFrom_of_ok hx, List.map_cons,
          List.filter_cons_of_pos (by simp), delivered_of_ok hx']
        exact delivered_slice hF ht assigned assigned' at' us hdeliver.2
      · exact hdeliver.elim
      · exact hdeliver.elim
      · rw [delivered_of_error hx, visitsFrom_of_error hx, List.map_cons,
          List.filter_cons_of_pos (by simp), delivered_of_error hx']
        exact hdeliver.2
    · have hother : LeavesSlice u w (deliver assigned at' u : RunnerM κ σ Unit) := deliver_other
      have hother := hother hu r.seen r rfl
      rcases hx : deliver assigned at' u r with ⟨_, r₁⟩ | ⟨e, r₁⟩ <;> rw [hx] at hother
      · rw [delivered_of_ok hx, visitsFrom_of_ok hx, List.map_cons,
          List.filter_cons_of_neg (by simpa using hu)]
        exact delivered_slice hF ht assigned assigned' at' us
          ⟨hother.1.trans h.1, hother.2.trans h.2⟩
      · rw [delivered_of_error hx, visitsFrom_of_error hx, List.map_cons,
          List.filter_cons_of_neg (by simpa using hu)]
        exact ⟨hother.1.trans h.1, hother.2.trans h.2⟩

/-- What the step of the first runner does to the window, its part for the window does in the
second: nothing if there is none, and else the same from the same slice. -/
def StepsApart (t : Trigger κ) (w : Window) (op : Operation) (r r' : Runner κ σ) : Prop :=
  op.on? w = none ∧ r.ownPart? w op = none ∧ SameSlice t w (r.step op).2 r' ∨
    ∃ own op' own', op.on? w = some own ∧ r.ownPart? w op = some op' ∧ op'.on? w = some own' ∧
      op.answerAt w (r.step op).1 = op'.answerAt w (r'.step op').1 ∧
      SameSlice t w (r.step op).2 (r'.step op').2

/-- An operation about one window counts in full for that window, and not at all for others. -/
theorem stepsApart_about {α : Type} {act : RunnerM κ σ α} {f : α → Answer} {op : Operation}
    (u : Window) (hperform : perform op = (do return f (← act) : RunnerM κ σ Answer))
    (hon : op.on? w = if u = w then some op else none) (hpart : r.ownPart? w op = op.on? w)
    (hown : u = w → SlicesAlike t w act act Eq) (hother : LeavesSlice u w act)
    (h : SameSlice t w r r') : StepsApart t w op r r' := by
  by_cases hu : u = w
  · rw [if_pos hu] at hon
    refine .inr ⟨op, op, op, hon, hpart.trans hon, hon, step_slice ?_ h⟩
    rw [hperform]
    exact .bind_eq (hown hu) fun _ => .pure rfl
  · rw [if_neg hu] at hon
    refine .inl ⟨hon, hpart.trans hon, LeavesSlice.step hu (fun _ v => ?_) h⟩
    rw [hperform]
    exact .map (hother hu v)

theorem step_apart (hF : ¬LawfulStore.Faulty σ) (hret : t.Customs NeverFails)
    (hassigned : t.Customs IgnoresAssigned) {op : Operation} (hop : op.Separate)
    (h : SameSlice t w r r') : StepsApart t w op r r' := by
  cases op with
  | element us at' =>
    refine .inr ⟨_, _, _, rfl, rfl, rfl, rfl, ?_⟩
    rw [step_element, step_element]
    exact delivered_slice hF hassigned us _ at' us h
  | merge us d => exact hop.elim
  | advance at' =>
    refine .inr ⟨_, _, _, rfl, rfl, rfl, step_slice ?_ h⟩
    refine .bind (V := fun us us' => w ∈ us ↔ w ∈ us') advance_slice fun us us' hw => .pure ?_
    simp [Operation.answerAt, hw]
  | tick at' => exact hop.elim
  | shouldFire u =>
    refine stepsApart_about u rfl rfl rfl ?_ (reading_other fun _ => shouldFire_ensures) h
    rintro rfl
    exact (sameSlice_lockstep hF).shouldFire
  | fire u =>
    refine stepsApart_about u rfl rfl rfl ?_ onFire_other h
    rintro rfl
    exact (sameSlice_lockstep hF).onFire
  | fireIfReady u =>
    refine stepsApart_about u rfl rfl rfl ?_ fireIfReady_other h
    rintro rfl
    exact (sameSlice_lockstep hF).fireIfReady
  | isClosed u =>
    refine stepsApart_about u rfl rfl rfl ?_ (reading_other fun _ => isClosed_ensures) h
    rintro rfl
    exact (sameSlice_lockstep hF).isClosed
  | windowState u =>
    refine stepsApart_about u rfl rfl rfl ?_ (reading_other fun _ => windowState_ensures) h
    rintro rfl
    exact (sameSlice_lockstep hF).windowState
  | collect =>
    refine .inr ⟨_, _, _, rfl, rfl, rfl, step_slice ?_ h⟩
    refine .bind (garbageCollect_slice hF hret) fun us us' hw => .pure ?_
    simp [Operation.answerAt, hw]

/-- A run shows of a window what its part for the window shows, and leaves the same slice. -/
theorem run_apart (hF : ¬LawfulStore.Faulty σ) (hret : t.Customs NeverFails)
    (hassigned : t.Customs IgnoresAssigned) : ∀ {ops : List Operation}, (∀ op ∈ ops, op.Separate) →
      ∀ {r r' : Runner κ σ}, SameSlice t w r r' →
        r.shown w ops = r'.shown w (r.ownRun w ops) ∧
          SameSlice t w (r.run ops) (r'.run (r.ownRun w ops))
  | [], _, _, _, h => ⟨rfl, h⟩
  | op :: ops, hops, r, r', h => by
    have hrest := fun o ho => hops o (List.mem_cons_of_mem op ho)
    unfold ownRun
    rcases step_apart hF hret hassigned (hops op List.mem_cons_self) h with
      ⟨hon, hpart, hstep⟩ | ⟨own, op', own', hon, hpart, hon', hanswer, hstep⟩
    · obtain ⟨hshown, hrun⟩ := run_apart hF hret hassigned hrest hstep
      rw [hpart]
      refine ⟨?_, hrun⟩
      rw [shown, hon]
      exact hshown
    · obtain ⟨hshown, hrun⟩ := run_apart hF hret hassigned hrest hstep
      rw [hpart]
      refine ⟨?_, hrun⟩
      show _ = r'.shown w (op' :: _)
      rw [shown, shown, hon, hon', hanswer, hstep.2, hshown]
      rfl

/-- Where no element fails on its way, the part of a run for a window is what there is of its
operations for the window. -/
theorem ownRun_eq (hF : ¬LawfulStore.Faulty σ) (hret : t.Customs NeverFails)
    (hown : t.Customs OwnNode) (hopen : t.Customs LeavesOpen) :
    ∀ {ops : List Operation}, (∀ op ∈ ops, op.Separate) → ∀ {r : Runner κ σ}, Receptive t r.seen →
      r.ownRun w ops = ops.filterMap fun op => op.on? w
  | [], _, _, _ => rfl
  | op :: ops, hops, r, h => by
    have hpart : r.ownPart? w op = op.on? w := by
      cases op with
      | element us at' =>
        have hall : (r.visitsOf (.element us at')).map Prod.snd = us :=
          visits_all hown hopen hret hF us at' us h
        unfold ownPart?
        dsimp only
        rw [hall]
        rfl
      | _ => rfl
    rw [ownRun, hpart, ownRun_eq hF hret hown hopen
      (fun o ho => hops o (List.mem_cons_of_mem op ho))
      (step_receptive hown hopen hret (hops op List.mem_cons_self) h)]
    cases hop : op.on? w <;> simp [hop]

/-- Without merges, a run shows of a window what its part for the window shows. In that part an
element has the window as often as it came there, which is as often as it was assigned to it unless
a custom trigger marks its own node at an element. -/
theorem windows_apart (hF : ¬LawfulStore.Faulty σ) (hret : t.Customs NeverFails)
    (hassigned : t.Customs IgnoresAssigned) (cfg : RunnerConfig) (store : σ) (w : Window)
    {ops : List Operation} (hops : ∀ op ∈ ops, op.Separate) :
    let first := start t cfg store
    let own := first.ownRun w ops
    first.shown w ops = first.shown w own ∧
      (first.run ops).seen.slice w = (first.run own).seen.slice w ∧
      ((∀ u, LawfulStore.contents store u = .empty) → t.Customs OwnNode → t.Customs LeavesOpen →
        own = ops.filterMap fun op => op.on? w) := by
  intro first own
  have hsame : SameSlice t w first first := ⟨rfl, rfl⟩
  obtain ⟨hshown, -, hslice⟩ := run_apart hF hret hassigned hops hsame
  refine ⟨hshown, hslice, fun hempty hown hopen => ?_⟩
  refine ownRun_eq hF hret hown hopen hops ⟨rfl, fun u => ?_⟩
  exact (congrArg t.Receptive (hempty u)).mpr Trigger.receptive_empty

/-- Another window is fired, also by force, and collected. -/
theorem windows_apart_scripted :
    let c : EarlyAndLate ScriptedTrigger :=
      ⟨.custom { threshold := .clamp 2, timers := [⟨.onElement, .eventTime, .element, 1⟩] },
        some (.custom {})⟩
    let a : Window := ⟨.clamp 0, .clamp 20⟩
    let b : Window := ⟨.clamp 0, .clamp 10⟩
    let first := start (.earlyAndLate c) { allowedLateness := 5 } MemoryStore.empty
    let ops : List Operation := [.element [b, a] (.clamp 3), .fire b, .element [a, b] (.clamp 4),
      .shouldFire b, .fireIfReady a, .advance (.clamp 12), .fireIfReady b, .advance (.clamp 20),
      .collect, .element [b, a] (.clamp 5), .fireIfReady a, .windowState a]
    let own : List Operation := [.element [a] (.clamp 3), .element [a] (.clamp 4), .fireIfReady a,
      .advance (.clamp 12), .advance (.clamp 20), .collect, .element [a] (.clamp 5), .fireIfReady a,
      .windowState a]
    first.shown a ops = first.shown a own ∧
      (first.run ops).seen.slice a = (first.run own).seen.slice a := by
  intro c a b first ops own
  have hret : c.Customs NeverFails :=
    .pair (ScriptedTrigger.neverFails rfl) (ScriptedTrigger.neverFails rfl)
  have hown : c.Customs OwnNode := .pair ScriptedTrigger.ownNode ScriptedTrigger.ownNode
  have hopen : c.Customs LeavesOpen :=
    .pair (ScriptedTrigger.leavesOpen rfl) (ScriptedTrigger.leavesOpen rfl)
  have hassigned : c.Customs IgnoresAssigned :=
    .pair ScriptedTrigger.ignoresAssigned ScriptedTrigger.ignoresAssigned
  have hops : ∀ op ∈ ops, op.Separate := by simp [ops, Operation.Separate]
  obtain ⟨hshown, hslice, hall⟩ := windows_apart (t := .earlyAndLate c) (fun hF => hF) hret
    hassigned { allowedLateness := 5 } MemoryStore.empty a hops
  have hpart : first.ownRun a ops = own :=
    (hall (fun _ => MemoryStore.state_empty) hown hopen).trans (by decide)
  rw [hpart] at hshown hslice
  exact ⟨hshown, hslice⟩

/-- An element that fails at one window does not come to the next. Assigned to that one alone, it
would. -/
theorem failed_element_misses_window :
    let t : Trigger ScriptedTrigger := .earlyAndLate ⟨.custom { finishOnElement := true }, none⟩
    let a : Window := ⟨.clamp 0, .clamp 10⟩
    let b : Window := ⟨.clamp 20, .clamp 30⟩
    let first := start t {} MemoryStore.empty
    let ops : List Operation := [.element [a] (.clamp 3), .element [a, b] (.clamp 4)]
    let own := ops.filterMap fun op => op.on? b
    t.Customs NeverFails ∧ t.Customs OwnNode ∧ t.Customs IgnoresAssigned ∧
      (∀ op ∈ ops, op.Separate) ∧ ((first.run ops).seen.slice b).active = false ∧
      ((first.run own).seen.slice b).active = true := by
  intro t a b first ops own
  have hops : ∀ op ∈ ops, op.Separate := by simp [ops, Operation.Separate]
  exact ⟨⟨ScriptedTrigger.neverFails rfl, nofun⟩, ⟨ScriptedTrigger.ownNode, nofun⟩,
    ⟨ScriptedTrigger.ignoresAssigned, nofun⟩, hops, by decide +kernel, by decide +kernel⟩

end Runner

end PaneTriggers
