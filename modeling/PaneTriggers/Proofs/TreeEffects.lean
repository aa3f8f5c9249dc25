import PaneTriggers.Proofs.ChildLookups
import PaneTriggers.Proofs.Conduct

/-!
# What a tree does to the state of a window

A step of an evaluation that calls hooks leaves whatever the hooks leave, so the lemmas here speak
of a relation `A p` that the hook at the node `p` keeps, and of a condition `F` under which hooks
fail. `EarlyAndLate.Fed` and `EarlyAndLate.Reconciled` list what an element and a merge can leave
behind. A firing leaves `EarlyAndLate.fired` of the state after the hook, in every phase.
-/

namespace PaneTriggers

open Eval

variable {κ : Type} {A : Position → WindowState → WindowState → Prop} {F : Prop} {s : Scope}
  {w : WindowState}

namespace Eval

theorem hook_ensures {B : WindowState → WindowState → Prop} {h : Hook Unit} (hh : HookDoes B F h) :
    Ensures (fun p : Progress κ => p.state = w) (hook h) (fun _ p => B w p.state)
      fun _ _ => F := by
  intro p hx
  obtain rfl := hx
  have hd := hh p.state { state := p.state } rfl
  unfold hook
  cases hr : h { state := p.state } with
  | ok _ d => rw [hr] at hd; exact hd
  | error e d => rw [hr] at hd; exact hd

theorem call_ensures {B : WindowState → WindowState → Prop} {h : Hook Unit} {k : κ} {i : Site}
    {o : Occasion} (hh : HookDoes B F h) :
    Ensures (fun p => p.state = w) (call k i o h) (fun _ p => B w p.state) fun _ _ => F :=
  .bind (.get fun _ hp => hp) fun _ => .bind (.modify fun _ hp => hp) fun _ => hook_ensures hh

theorem change_ensures {f : WindowState → WindowState} :
    Ensures (fun p : Progress κ => p.state = w) (change f) (fun _ p => p.state = f w)
      fun _ _ => F :=
  .modify fun _ hp => congrArg f hp

theorem setTimer_does {i : Site} (hi : i.Open) (d : TimeDomain) (t : Timestamp) :
    HookDoes (fun w w' => w' = w) F (i.setTimer d t) := by
  intro w p h
  obtain rfl := h
  unfold Site.setTimer
  rw [hi d]
  rfl

end Eval

/-- Of the done bits, the relation at a node lets no other change, and its own be set back. -/
structure Resettable (A : Position → WindowState → WindowState → Prop) : Prop where
  refl : ∀ p w, A p w w
  others : ∀ {p w w'}, A p w w' → ∀ q, q ≠ p → w'.finished q = w.finished q
  reset : ∀ {p w w'}, A p w w' → A p w (w'.setFinished p (w.finished p))

namespace Resettable

theorem of_sameFinished (hA : ∀ p w, A p w w) (hf : ∀ p w w', A p w w' → SameFinished w w') :
    Resettable A where
  refl := hA
  others h q _ := hf _ _ _ h q
  reset h := by
    rw [← hf _ _ _ h, WindowState.setFinished_self]
    exact h

theorem nodeAt : Resettable NodeAt where
  refl := NodeAt.refl
  others h q hq := congrArg NodeState.finished (h q hq)
  reset h q hq := (WindowState.node_setFinished _).trans ((if_neg (Ne.symm hq)).trans (h q hq))

theorem sameFinished_reset (hA : Resettable A) {p : Position} {w' : WindowState} (h : A p w w') :
    SameFinished w (w'.setFinished p (w.finished p)) := by
  intro q
  rw [WindowState.finished_setFinished]
  split_ifs with hq
  · rw [hq]
  · exact hA.others h q (Ne.symm hq)

end Resettable

namespace Leaf

variable [CustomTrigger κ] {l : Leaf κ}

theorem onElement_ensures (hA : l.trigger.Builtin → ∀ w, A l.position w w) (hs : s.Open)
    (t : Timestamp) (ws : List Window)
    (hk : l.trigger.IfCustom fun k =>
      HookDoes (A l.position) F (CustomTrigger.onElement k (l.site s) t ws)) :
    Ensures (fun p => p.state = w) (l.onElement s t ws) (fun _ p => A l.position w p.state)
      fun _ _ => F := by
  obtain ⟨p, trigger⟩ := l
  cases trigger with
  | endOfWindow =>
    refine (hook_ensures (setTimer_does (i := site _ s) hs _ _)).onReturn ?_
    intro _ p h
    obtain rfl := h
    exact hA trivial _
  | never => exact .pure fun q (hq : q.state = w) => hq ▸ hA trivial _
  | custom k => exact call_ensures hk

theorem onMerge_ensures (hA : ∀ p w, A p w w) {ms : List MergeSource}
    (hk : l.trigger.IfCustom fun k =>
      HookDoes (A l.position) F (CustomTrigger.onMerge k (l.site s) ms)) :
    Ensures (fun p => p.state = w) (l.onMerge s ms) (fun _ p => match l.trigger with
      | .endOfWindow => p.state = w.setFinished l.position (finishedInAll ms l.position && s.ended)
      | _ => A l.position w p.state) fun _ _ => F := by
  obtain ⟨p, trigger⟩ := l
  cases trigger with
  | endOfWindow => exact change_ensures (f := fun w => w.setFinished p _)
  | never => exact .pure fun q (hq : q.state = w) => hq ▸ hA _ _
  | custom k => exact call_ensures hk

/-- Readiness fails only where a custom trigger fails to decide. -/
theorem ready_error
    (hk : l.trigger.IfCustom fun k =>
      ∀ w e, CustomTrigger.shouldFire k (l.site s) w = .error e → F)
    {e : TriggerError} (h : l.ready s w = .error e) : F := by
  obtain ⟨p, trigger⟩ := l
  cases trigger with
  | endOfWindow => cases h
  | never => cases h
  | custom k => exact hk w e h

theorem ask_ensures
    (hk : l.trigger.IfCustom fun k =>
      ∀ w e, CustomTrigger.shouldFire k (l.site s) w = .error e → F) :
    Ensures (fun p => p.state = w) (l.ask s)
      (fun b p => p.state = w ∧ l.ready s w = .ok b) fun _ _ => F := by
  refine .bind (Q := fun a p => p.state = w ∧ a = p) (.get fun p hp => ⟨hp, rfl⟩) fun a => ?_
  refine .bind (Q := fun _ p => p.state = w ∧ a.state = w)
    (.modify fun p hp => ⟨hp.1, by rw [hp.2, hp.1]⟩) fun _ => ?_
  intro p hp
  rw [hp.2]
  cases hr : l.ready s w with
  | ok b => exact ⟨hp.1, rfl⟩
  | error e => exact ready_error hk hr

theorem ready_returns (hl : l.trigger.IfCustom NeverFails) (hs : s.Open) :
    ∃ b, l.ready s w = .ok b := by
  obtain ⟨p, trigger⟩ := l
  cases trigger with
  | endOfWindow => exact ⟨_, rfl⟩
  | never => exact ⟨_, rfl⟩
  | custom k => exact hl.shouldFire (site ⟨p, .custom k⟩ s) w hs

theorem onFire_ensures (hA : ∀ p w, A p w w)
    (hk : l.trigger.IfCustom fun k =>
      HookDoes (A l.position) F (CustomTrigger.onOnlyFiring k (l.site s))) :
    Ensures (fun p => p.state = w) (l.onFire s)
      (fun _ p => ∃ w₁, A l.position w w₁ ∧ p.state = w₁.setFinished l.position true)
      fun _ _ => F := by
  obtain ⟨p, trigger⟩ := l
  have mark : Ensures (fun q : Progress κ => A p w q.state) (setFinished ⟨p, trigger⟩ true)
      (fun _ q => ∃ w₁, A p w w₁ ∧ q.state = w₁.setFinished p true) fun _ _ => F :=
    .modify fun q hq => ⟨q.state, hq, rfl⟩
  have still : Ensures (fun q : Progress κ => q.state = w) (pure PUnit.unit : Eval κ PUnit)
      (fun _ q => A p w q.state) fun _ _ => F :=
    .pure fun q (hq : q.state = w) => hq ▸ hA _ _
  cases trigger with
  | endOfWindow => exact .bind still fun _ => mark
  | never => exact .bind still fun _ => mark
  | custom k => exact .bind (call_ensures hk) fun _ => mark

/-- Firing a leaf and arming it again leaves its node at the default. -/
theorem rearm_ensures (hA : ∀ p w, A p w w)
    (hk : l.trigger.IfCustom fun k =>
      HookDoes (A l.position) F (CustomTrigger.onOnlyFiring k (l.site s))) :
    Ensures (fun p => p.state = w) (do l.onFire s; l.clear; l.setFinished false)
      (fun _ p => ∃ w₁, A l.position w w₁ ∧
        p.state = (w₁.clearSubtree l.position).setFinished l.position false) fun _ _ => F := by
  refine .bind (onFire_ensures hA hk) fun _ => ?_
  refine .bind (Q := fun _ p => ∃ w₁, A l.position w w₁ ∧
    p.state = (w₁.setFinished l.position true).clearSubtree l.position) (.modify ?_)
    fun _ => .modify ?_
  · intro p hx
    obtain ⟨w₁, h, hp⟩ := hx
    exact ⟨w₁, h, congrArg (WindowState.clearSubtree · l.position) hp⟩
  · intro p hx
    obtain ⟨w₁, h, hp⟩ := hx
    refine ⟨w₁, h, ?_⟩
    rw [← WindowState.rearm_setFinished (b := true)]
    exact congrArg (WindowState.setFinished · l.position false) hp

end Leaf

namespace EarlyAndLate

/-- The node that decides about firing, or would if it were there. -/
def active (w : WindowState) : Position := if w.finished .early then .late else .early

/-- Some child is not done. -/
def HasOpenChild (c : EarlyAndLate κ) (w : WindowState) : Prop :=
  w.finished .early = false ∨ c.late ≠ none ∧ w.finished .late = false

/-- What an element leaves of `w`: the first open child takes it or, where windows can merge, every
child does. -/
inductive Fed (A : Position → WindowState → WindowState → Prop) (c : EarlyAndLate κ)
    (merging : Bool) (w : WindowState) : WindowState → Prop where
  | early {w'} : merging = false → w.finished .early = false → A .early w w' → Fed A c merging w w'
  | late {w'} : merging = false → w.finished .early = true → c.late ≠ none →
      w.finished .late = false → A .late w w' → Fed A c merging w w'
  | alone {w'} : merging = true → c.late = none → A .early w w' → Fed A c merging w w'
  | both {w₁ w'} : merging = true → c.late ≠ none → A .early w w₁ → A .late w₁ w' →
      Fed A c merging w w'

/-- What a firing leaves of the state after the hook. -/
def fired (c : EarlyAndLate κ) (ended : Bool) (w : WindowState) : WindowState :=
  if w.finished .early then
    match c.late with
    | some _ => (w.clearSubtree .late).setFinished .late false
    | none => w.setFinished .root true
  else if ended then
    match c.late with
    | some _ => ((w.setFinished .early true).clearSubtree .early).clearSubtree .late
    | none => ((w.setFinished .early true).clearSubtree .early).setFinished .root true
  else (w.clearSubtree .early).setFinished .early false

/-- The state of the early phase that a merge goes back to. -/
def restarted (c : EarlyAndLate κ) (w : WindowState) : WindowState :=
  match c.late with
  | some _ => ((w.setFinished .early false).setFinished .late false).clearSubtree .late
  | none => w.setFinished .early false

/-- What a merge leaves of the scratch state `w`. -/
inductive Reconciled (A : Position → WindowState → WindowState → Prop) (c : EarlyAndLate κ)
    (ended : Bool) (ms : List MergeSource) (w : WindowState) : WindowState → Prop where
  | restarted : (finishedInAll ms .early && ended) = false →
      Reconciled A c ended ms w (c.restarted w)
  | alone : (finishedInAll ms .early && ended) = true → c.late = none →
      Reconciled A c ended ms w (w.setFinished .early true)
  | lateEnd : (finishedInAll ms .early && ended) = true → c.late = some .endOfWindow →
      Reconciled A c ended ms w
        ((w.setFinished .early true).setFinished .late (finishedInAll ms .late && ended))
  | late {w'} : (finishedInAll ms .early && ended) = true → c.late ≠ none →
      c.late ≠ some .endOfWindow → A .late (w.setFinished .early true) w' →
      Reconciled A c ended ms w w'

variable {c : EarlyAndLate κ}

theorem leaves_alone (h : c.late = none) :
    (Node.root (.earlyAndLate c)).leaves = [c.earlyAt .root] := by
  rw [Node.root, Node.leaves_earlyAndLate, lateAt, h]
  rfl

theorem leaves_pair {t : OnceTrigger κ} (h : c.late = some t) :
    (Node.root (.earlyAndLate c)).leaves = [c.earlyAt .root, ⟨.late, t⟩] := by
  rw [Node.root, Node.leaves_earlyAndLate, lateAt, h]
  rfl

theorem mem_leaves_early : c.earlyAt .root ∈ (Node.root (.earlyAndLate c)).leaves := by
  rw [Node.root, Node.leaves_earlyAndLate]
  exact List.mem_cons_self

theorem mem_leaves_late {t : OnceTrigger κ} (h : c.late = some t) :
    ⟨.late, t⟩ ∈ (Node.root (.earlyAndLate c)).leaves := by
  simp [leaves_pair h]

theorem forall_leaves {P : Leaf κ → Prop} (he : P (c.earlyAt .root))
    (hl : ∀ t, c.late = some t → P ⟨.late, t⟩) :
    ∀ l ∈ (Node.root (.earlyAndLate c)).leaves, P l := by
  rcases hc : c.late with _ | t
  · simpa [leaves_alone hc] using he
  · simpa [leaves_pair hc] using ⟨he, hl t hc⟩

theorem Customs.leaves {P : κ → Prop} (h : c.Customs P) :
    ∀ l ∈ (Node.root (.earlyAndLate c)).leaves, l.trigger.IfCustom P :=
  forall_leaves h.early h.late

/-- From the end of the window on, a firing leaves the early child done. -/
theorem finished_early_fired {ended : Bool} :
    (c.fired ended w).finished .early = (w.finished .early || ended) := by
  unfold fired
  rcases he : w.finished .early <;> cases ended <;> rcases hc : c.late with _ | t <;>
    simp [WindowState.finished_setFinished, WindowState.finished_clearSubtree, he]

/-- Without a late child, the root is done from the end of the window on. -/
theorem finished_root_fired {ended : Bool} : (c.fired ended w).finished .root =
    (w.finished .root || c.late.isNone && (w.finished .early || ended)) := by
  unfold fired
  rcases he : w.finished .early <;> cases ended <;> rcases hc : c.late with _ | t <;>
    simp [WindowState.finished_setFinished, WindowState.finished_clearSubtree]

theorem finished_late_fired {ended : Bool} : (c.fired ended w).finished .late =
    (w.finished .late && !(w.finished .early && c.late.isSome)) := by
  unfold fired
  rcases he : w.finished .early <;> cases ended <;> rcases hc : c.late with _ | t <;>
    simp [WindowState.finished_setFinished, WindowState.finished_clearSubtree]

theorem counter_early_fired {ended : Bool} (he : w.finished .early = false) :
    (c.fired ended w).counter .early = 0 := by
  cases ended <;> rcases hc : c.late with _ | t <;>
    simp [fired, he, hc, WindowState.counter_clearSubtree]

/-- The late child starts afresh at the end of the window, and after each of its firings. -/
theorem counter_late_fired {ended : Bool} {t : OnceTrigger κ} (hc : c.late = some t)
    (h : w.finished .early = true ∨ ended = true) : (c.fired ended w).counter .late = 0 := by
  rcases he : w.finished .early
  · rw [he] at h
    obtain rfl := h.resolve_left Bool.false_ne_true
    simp [fired, he, hc, WindowState.counter_clearSubtree]
  · simp [fired, he, hc, WindowState.counter_clearSubtree]

theorem firstUnfinished_of_early (h : w.finished .early = false) :
    (Node.root (.earlyAndLate c)).firstUnfinished? w = .ok (c.earlyAt .root) := by
  have h' : w.finished (c.earlyAt .root).position = false := h
  simp [Node.firstUnfinished?, Node.leaves_earlyAndLate, Node.root, h']

theorem firstUnfinished_of_late {t : OnceTrigger κ} (hc : c.late = some t)
    (he : w.finished .early = true) (h : w.finished .late = false) :
    (Node.root (.earlyAndLate c)).firstUnfinished? w = .ok ⟨.late, t⟩ := by
  have he' : w.finished (c.earlyAt .root).position = true := he
  simp [Node.firstUnfinished?, leaves_pair hc, he', h]

theorem mem_of_firstUnfinished {n : Node κ} {l : Leaf κ} (h : n.firstUnfinished? w = .ok l) :
    l ∈ n.leaves := by
  unfold Node.firstUnfinished? at h
  split at h
  · next hl =>
    cases h
    exact List.mem_of_find?_eq_some hl
  · cases h

theorem firstUnfinished_error (h : ¬c.HasOpenChild w) :
    (Node.root (.earlyAndLate c)).firstUnfinished? w = .error (.allSubTriggersFinished .root) := by
  have he : w.finished (c.earlyAt .root).position = true := by
    by_contra he
    exact h (.inl (Bool.eq_false_iff.2 he))
  rcases hc : c.late with _ | t
  · simp [Node.firstUnfinished?, leaves_alone hc, he]
    rfl
  · have hl : w.finished .late = true := by
      by_contra hl
      exact h (.inr ⟨by simp [hc], Bool.eq_false_iff.2 hl⟩)
    simp [Node.firstUnfinished?, leaves_pair hc, he, hl]
    rfl

/-- How the end of the window retires the early child, once it has fired. -/
def retire (c : EarlyAndLate κ) : Eval κ Unit := do
  (c.earlyAt .root).setFinished true
  (c.earlyAt .root).clear
  match c.lateAt .root with
  | some late => late.clear
  | none => change fun w => w.setFinished .root true

/-- Whether the early child is marked already does not matter. -/
theorem retire_ensures {w₁ : WindowState} (hw : w₁.finished .early = false) :
    Ensures (fun p => p.state.setFinished .early true = w₁.setFinished .early true) c.retire
      (fun _ p => p.state = c.fired true w₁) fun _ _ => F := by
  refine .bind (Q := fun _ p => p.state = w₁.setFinished .early true) (.modify fun p hp => hp)
    fun _ => .bind (Q := fun _ p => p.state = (w₁.setFinished .early true).clearSubtree .early)
      (.modify fun p hp => congrArg (WindowState.clearSubtree · .early) hp) fun _ => ?_
  rcases hc : c.late with _ | t
  · simp only [lateAt, hc, Option.map_none]
    refine .modify fun p hp => ?_
    simp only [fired, hw, hc, hp, Bool.false_eq_true, if_false, if_true]
  · simp only [lateAt, hc, Option.map_some]
    refine .modify fun p hp => ?_
    simp only [fired, hw, hc, hp, Bool.false_eq_true, if_false, if_true]
    rfl

variable [CustomTrigger κ]

/-- An element goes to the open children, and one is open unless failing is allowed. -/
theorem onElement_ensures
    (hA : ∀ l ∈ (Node.root (.earlyAndLate c)).leaves, l.trigger.Builtin → ∀ w, A l.position w w)
    (hs : s.Open) {t : Timestamp} {ws : List Window}
    (hk : ∀ l ∈ (Node.root (.earlyAndLate c)).leaves, l.trigger.IfCustom fun k =>
      HookDoes (A l.position) F (CustomTrigger.onElement k (l.site s) t ws))
    (hw : F ∨ c.HasOpenChild w) :
    Ensures (fun p => p.state = w) ((Node.root (.earlyAndLate c)).onElement s t ws)
      (fun _ p => c.Fed A s.merging w p.state) fun _ _ => F := by
  have early : ∀ w, Ensures (fun p => p.state = w) ((c.earlyAt .root).onElement s t ws)
      (fun _ p => A .early w p.state) fun _ _ => F := fun w =>
    Leaf.onElement_ensures (hA _ mem_leaves_early) hs t ws (hk _ mem_leaves_early)
  have late : ∀ t', c.late = some t' → ∀ w,
      Ensures (fun p => p.state = w) (Leaf.onElement ⟨.late, t'⟩ s t ws)
        (fun _ p => A .late w p.state) fun _ _ => F := fun t' ht' w =>
    Leaf.onElement_ensures (hA _ (mem_leaves_late ht')) hs t ws (hk _ (mem_leaves_late ht'))
  unfold Node.onElement
  dsimp only [Node.root]
  split_ifs with hm
  · rw [Node.leaves_earlyAndLate]
    rcases hc : c.late with _ | t'
    · simp only [lateAt, hc, Option.map_none, Option.toList_none]
      exact .bind (early w) fun _ => .pure fun p hp => .alone hm hc hp
    · simp only [lateAt, hc, Option.map_some, Option.toList_some]
      refine .bind (early w) fun _ => .bind (Q := fun _ p => c.Fed A s.merging w p.state) ?_
        fun _ => .pure fun _ h => h
      refine .of_each fun w₁ h₁ => (late t' hc w₁).onReturn (fun _ p hp => ?_)
      exact .both hm (by simp [hc]) h₁ hp
  · have hm : s.merging = false := by simpa using hm
    refine .bind (Q := fun a p => a.state = w ∧ p.state = w) (.get fun p hp => ⟨hp, hp⟩)
      fun a => .of_fact fun ha => ?_
    rw [ha]
    rcases he : w.finished .early
    · have hf : (⟨.root, .earlyAndLate c⟩ : Node κ).firstUnfinished? w = _ :=
        firstUnfinished_of_early he
      rw [hf]
      exact (early w).onReturn (fun _ _ h => .early hm he h)
    · by_cases hl : c.late ≠ none ∧ w.finished .late = false
      · obtain ⟨t', ht'⟩ := Option.ne_none_iff_exists'.1 hl.1
        have hf : (⟨.root, .earlyAndLate c⟩ : Node κ).firstUnfinished? w = _ :=
          firstUnfinished_of_late ht' he hl.2
        rw [hf]
        exact (late t' ht' w).onReturn (fun _ _ h => .late hm he hl.1 hl.2 h)
      · have hc : ¬c.HasOpenChild w := fun h => h.elim (by simp [he]) hl
        have hf : (⟨.root, .earlyAndLate c⟩ : Node κ).firstUnfinished? w = _ :=
          firstUnfinished_error hc
        rw [hf]
        exact .throw fun _ _ => hw.resolve_right hc

theorem endFiring_leaves (hA : Resettable A) (hw : w.finished .early = false)
    (hk : c.early.IfCustom fun k =>
      HookDoes (A .early) F (CustomTrigger.onOnlyFiring k ((c.earlyAt .root).site s)))
    (hq : c.early.IfCustom fun k =>
      ∀ w e, CustomTrigger.shouldFire k ((c.earlyAt .root).site s) w = .error e → F) :
    Ensures (fun p => p.state = w) (Node.endFiring ⟨.root, .earlyAndLate c⟩ c s)
      (fun _ p => ∃ w₁, A .early w w₁ ∧ SameFinished w w₁ ∧ p.state = c.fired true w₁)
      fun _ _ => F := by
  -- The early child is marked in the end, whatever its hook did to the mark.
  have rest : ∀ w₁, A .early w w₁ → Ensures
      (fun p => p.state.setFinished .early true = w₁.setFinished .early true) c.retire
      (fun _ p => ∃ w₁, A .early w w₁ ∧ SameFinished w w₁ ∧ p.state = c.fired true w₁)
      fun _ _ => F := by
    intro w₁ h₁
    have hsame := hA.sameFinished_reset h₁
    have hopen : (w₁.setFinished .early (w.finished .early)).finished .early = false :=
      (hsame .early).trans hw
    refine (retire_ensures hopen).mono (fun p hp => ?_)
      (fun _ p hp => ⟨_, hA.reset h₁, hsame, hp⟩) fun _ _ h => h
    rw [hp, WindowState.setFinished_setFinished]
  rw [Node.endFiring_earlyAndLate]
  refine .bind (Leaf.ask_ensures hq) fun b => .ite (fun _ => ?_) fun _ => ?_
  · refine .bind ((Leaf.onFire_ensures hA.refl hk).mono (fun _ h => h.1) (fun _ _ h => h)
      fun _ _ h => h) fun _ p hp => ?_
    obtain ⟨w₁, h₁, hp⟩ := hp
    have hmark : p.state.setFinished .early true = w₁.setFinished .early true := by
      rw [hp]
      exact WindowState.setFinished_setFinished
    exact rest w₁ h₁ p hmark
  · intro p hp
    have hmark : p.state.setFinished .early true = w.setFinished .early true := by rw [hp.1]
    exact rest w (hA.refl _ _) p hmark

/-- A firing leaves `fired` of what the hook of the active child left, but for the mark that the
hook may have set on its node. -/
theorem onFire_leaves (hA : Resettable A)
    (hk : ∀ l ∈ (Node.root (.earlyAndLate c)).leaves, l.trigger.IfCustom fun k =>
      HookDoes (A l.position) F (CustomTrigger.onOnlyFiring k (l.site s)))
    (hq : ∀ l ∈ (Node.root (.earlyAndLate c)).leaves, l.trigger.IfCustom fun k =>
      ∀ w e, CustomTrigger.shouldFire k (l.site s) w = .error e → F) :
    Ensures (fun p => p.state = w) ((Node.root (.earlyAndLate c)).onFire s)
      (fun _ p => ∃ w₁, A (active w) w w₁ ∧ SameFinished w w₁ ∧ p.state = c.fired s.ended w₁)
      fun _ _ => F := by
  rw [Node.root, Node.onFire_earlyAndLate]
  refine .bind (Q := fun a p => a.state = w ∧ p.state = w) (.get fun p hp => ⟨hp, hp⟩)
    fun a => .of_fact fun ha => ?_
  rw [ha]
  refine .ite (fun he => ?_) fun he => ?_
  · have he : w.finished .early = true := he
    have hactive : active w = .late := by simp only [active, he, if_true]
    rw [hactive]
    rcases hc : c.late with _ | t
    · simp only [lateAt, hc, Option.map_none]
      refine .modify ?_
      intro p hx
      obtain rfl := hx
      exact ⟨p.state, hA.refl _ _, .refl _, by simp only [fired, he, hc, if_true]⟩
    · simp only [lateAt, hc, Option.map_some]
      refine (Leaf.rearm_ensures hA.refl (hk _ (mem_leaves_late hc))).onReturn ?_
      intro _ p hx
      obtain ⟨w₁, h, hp⟩ := hx
      have hsame := hA.sameFinished_reset h
      refine ⟨_, hA.reset h, hsame, ?_⟩
      rw [hp]
      simp only [fired, hsame .early, he, hc, if_true]
      exact WindowState.rearm_setFinished.symm
  · have he : w.finished .early = false := Bool.eq_false_iff.2 he
    have hactive : active w = .early := by simp [active, he]
    rw [hactive]
    refine .ite (fun hs' => ?_) fun hs' => ?_
    · rw [hs']
      exact endFiring_leaves hA he (hk _ mem_leaves_early) (hq _ mem_leaves_early)
    · refine (Leaf.rearm_ensures hA.refl (hk _ mem_leaves_early)).onReturn ?_
      intro _ p hx
      obtain ⟨w₁, h, hp⟩ := hx
      have hsame := hA.sameFinished_reset h
      refine ⟨_, hA.reset h, hsame, ?_⟩
      have hearly : (w₁.setFinished .early (w.finished .early)).finished .early = false :=
        (hsame .early).trans he
      rw [hp]
      simp only [fired, hearly, hs', Bool.false_eq_true, if_false]
      exact WindowState.rearm_setFinished.symm

/-- A firing leaves `fired` of what the hook of the active child left. -/
theorem onFire_ensures (hA : ∀ p w, A p w w) (hf : ∀ p w w', A p w w' → SameFinished w w')
    (hk : ∀ l ∈ (Node.root (.earlyAndLate c)).leaves, l.trigger.IfCustom fun k =>
      HookDoes (A l.position) F (CustomTrigger.onOnlyFiring k (l.site s)))
    (hq : ∀ l ∈ (Node.root (.earlyAndLate c)).leaves, l.trigger.IfCustom fun k =>
      ∀ w e, CustomTrigger.shouldFire k (l.site s) w = .error e → F) :
    Ensures (fun p => p.state = w) ((Node.root (.earlyAndLate c)).onFire s)
      (fun _ p => ∃ w₁, A (active w) w w₁ ∧ p.state = c.fired s.ended w₁) fun _ _ => F :=
  (onFire_leaves (.of_sameFinished hA hf) hk hq).onReturn fun _ _ ⟨w₁, h, _, hp⟩ => ⟨w₁, h, hp⟩

/-- A firing of children that write their own nodes only, and return unless `F`. -/
theorem onFire_ownNode (hown : c.Customs OwnNode) (hF : F ∨ s.Open ∧ c.Customs NeverFails) :
    Ensures (fun p => p.state = w) ((Node.root (.earlyAndLate c)).onFire s)
      (fun _ p => ∃ w₁, NodeAt (active w) w w₁ ∧ SameFinished w w₁ ∧ p.state = c.fired s.ended w₁)
      fun _ _ => F := by
  have hmay : ∀ l ∈ (Node.root (.earlyAndLate c)).leaves,
      l.trigger.IfCustom fun k => F ∨ s.Open ∧ NeverFails k := fun l hl => by
    rcases hF with hF | ⟨hs, hret⟩
    · exact (hown.leaves l hl).mono fun _ _ => .inl hF
    · exact (hret.leaves l hl).mono fun _ hk => .inr ⟨hs, hk⟩
  refine onFire_leaves .nodeAt (fun l hl => ?_) fun l hl => (hmay l hl).mono fun k hk w e he => ?_
  · exact OnceTrigger.IfCustom.and (fun k hk hr => .of_ok (hk.onOnlyFiring _)
      (hr.imp_right fun h d => h.2.onOnlyFiring _ d h.1)) (hown.leaves l hl) (hmay l hl)
  · rcases hk with hF | ⟨hs, hret⟩
    · exact hF
    · obtain ⟨b, hb⟩ := hret.shouldFire (l.site s) w hs
      cases hb.symm.trans he

theorem onMerge_ensures (hA : ∀ p w, A p w w) {ms : List MergeSource}
    (hk : ∀ l ∈ (Node.root (.earlyAndLate c)).leaves, l.trigger.IfCustom fun k =>
      HookDoes (A l.position) F (CustomTrigger.onMerge k (l.site s) ms)) :
    Ensures (fun p => p.state = w) ((Node.root (.earlyAndLate c)).onMerge s ms)
      (fun _ p => c.Reconciled A s.ended ms w p.state) fun _ _ => F := by
  rw [Node.root, Node.onMerge_earlyAndLate]
  refine .ite (fun he => ?_) fun he => ?_
  · have he : (finishedInAll ms .early && s.ended) = true := he
    refine .bind change_ensures fun _ => ?_
    rcases hc : c.late with _ | t
    · simp only [lateAt, hc, Option.map_none]
      exact .pure fun p hp => by rw [hp]; exact .alone he hc
    · simp only [lateAt, hc, Option.map_some]
      refine (Leaf.onMerge_ensures hA (hk _ (mem_leaves_late hc))).onReturn (fun _ p hp => ?_)
      cases t with
      | endOfWindow =>
        rw [show p.state = _ from hp]
        exact .lateEnd he hc
      | never => exact .late he (by simp [hc]) (by simp [hc]) hp
      | custom k => exact .late he (by simp [hc]) (by simp [hc]) hp
  · have he : (finishedInAll ms .early && s.ended) = false := Bool.eq_false_iff.2 he
    refine .bind change_ensures fun _ => ?_
    have done : ∀ w', w' = c.restarted w → c.Reconciled A s.ended ms w w' := by
      intro _ h
      obtain rfl := h
      exact .restarted he
    rcases hc : c.late with _ | t
    · simp only [lateAt, hc, Option.map_none]
      refine .pure fun p hp => done _ ?_
      simp only [hp, restarted, hc]
      rfl
    · simp only [lateAt, hc, Option.map_some]
      refine .bind change_ensures fun _ => change_ensures.onReturn (fun _ p hp => done _ ?_)
      simp only [hp, restarted, hc]
      rfl

theorem ready_of_early (he : w.finished .early = false) :
    (Node.root (.earlyAndLate c)).ready s w =
      ((c.earlyAt .root).ready s w).map fun b => b || s.ended := by
  have he' : w.finished (c.earlyAt .root).position = false := he
  simp only [Node.root, Node.ready_earlyAndLate, he', Bool.false_eq_true, if_false]

theorem ready_of_late (he : w.finished .early = true) :
    (Node.root (.earlyAndLate c)).ready s w = match c.late with
      | some t => Leaf.ready ⟨.late, t⟩ s w
      | none => .ok false := by
  have he' : w.finished (c.earlyAt .root).position = true := he
  rcases hc : c.late with _ | t <;>
    simp only [Node.root, Node.ready_earlyAndLate, he', lateAt, hc, Option.map_none, Option.map_some,
      if_true]
  rfl

/-- Readiness fails only where a custom child fails to decide. -/
theorem ready_error (hq : ∀ l ∈ (Node.root (.earlyAndLate c)).leaves, l.trigger.IfCustom fun k =>
      ∀ w e, CustomTrigger.shouldFire k (l.site s) w = .error e → F)
    {e : TriggerError} (h : (Node.root (.earlyAndLate c)).ready s w = .error e) : F := by
  rcases he : w.finished .early
  · rw [ready_of_early he] at h
    rcases hr : (c.earlyAt .root).ready s w with e' | b <;> rw [hr] at h
    · exact Leaf.ready_error (hq _ mem_leaves_early) hr
    · cases h
  · rw [ready_of_late he] at h
    rcases hc : c.late with _ | t <;> rw [hc] at h
    · cases h
    · exact Leaf.ready_error (hq _ (mem_leaves_late hc)) h

/-- After the end of the window a composite that has not retired its early child is ready. -/
theorem ready_of_ended (he : w.finished .early = false) (hs : s.ended = true) {b : Bool}
    (h : (Node.root (.earlyAndLate c)).ready s w = .ok b) : b = true := by
  rw [ready_of_early he, hs] at h
  rcases hr : (c.earlyAt .root).ready s w with e | b' <;> rw [hr] at h
  · cases h
  · simpa [Except.map, eq_comm] using h

end EarlyAndLate

/-- A tree whose custom triggers never fail can always decide. -/
theorem Trigger.ready_returns [CustomTrigger κ] {t : Trigger κ} (ht : t.Customs NeverFails)
    (hs : s.Open) : ∃ b, (Node.root t).ready s w = .ok b := by
  cases t with
  | once t => exact Leaf.ready_returns (l := ⟨.root, t⟩) ht hs
  | earlyAndLate c =>
    cases hr : (Node.root (.earlyAndLate c)).ready s w with
    | ok b => exact ⟨b, rfl⟩
    | error e =>
      refine (EarlyAndLate.ready_error (F := False) (fun l hl => ?_) hr).elim
      refine (EarlyAndLate.Customs.leaves ht l hl).mono fun k hk w' e' he => ?_
      obtain ⟨b, hb⟩ := hk.shouldFire (l.site s) w' hs
      cases hb.symm.trans he

end PaneTriggers
