import PaneTriggers.Trigger.Evaluation
import PaneTriggers.Proofs.Ensures
import PaneTriggers.Proofs.StateReads

/-!
# How custom triggers may behave

What is promised of a tree depends on what its custom triggers do. `OwnCounter` says that the hooks
write nothing but the counter of their own node, `OwnNode` that they may mark that node as well, and
`NeverFails` that they return wherever timers are accepted. `Modest F` is what most results need:
own counter only, and no failure unless `F`. `Secluded` says that the hooks read no counter but that
of their own node, and not whether windows can merge. `SumsOnMerge` says that all a merge does to
the counter is to sum up the sources'.
-/

namespace PaneTriggers

variable {κ : Type}

/-- No timer is refused. -/
def Scope.Open (s : Scope) : Prop := ∀ d, s.refusal? d = none

/-- The second state is the first with some counter at `p`. -/
def CounterAt (p : Position) (w w' : WindowState) : Prop := ∃ c, w' = w.setCounter p c

/-- The same nodes are done in both states. -/
def SameFinished (w w' : WindowState) : Prop := ∀ q, w'.finished q = w.finished q

/-- The two states differ at most at the node at `p`. -/
def NodeAt (p : Position) (w w' : WindowState) : Prop := ∀ q, q ≠ p → w'.node q = w.node q

/-- The two states look alike from `p`: the done bits agree, and so does the counter at `p`. -/
def SameView (p : Position) (w w' : WindowState) : Prop :=
  SameFinished w w' ∧ w'.counter p = w.counter p

/-- What the counters of the sources at `p` sum to. -/
def counterOfAll (ms : List MergeSource) (p : Position) : Counter :=
  Counter.sum (ms.map fun m => m.state.counter p)

theorem CounterAt.refl (p : Position) (w : WindowState) : CounterAt p w w :=
  ⟨w.counter p, WindowState.setCounter_self.symm⟩

theorem CounterAt.sameFinished {p : Position} {w w' : WindowState} (h : CounterAt p w w') :
    SameFinished w w' := by
  obtain ⟨c, rfl⟩ := h
  exact fun _ => WindowState.finished_setCounter

theorem CounterAt.nodeAt {p : Position} {w w' : WindowState} (h : CounterAt p w w') :
    NodeAt p w w' := by
  obtain ⟨c, rfl⟩ := h
  intro q hq
  rw [WindowState.node_setCounter, if_neg (Ne.symm hq)]

theorem NodeAt.refl (p : Position) (w : WindowState) : NodeAt p w w := fun _ _ => rfl

theorem SameFinished.refl (w : WindowState) : SameFinished w w := fun _ => rfl

theorem SameFinished.trans {w₁ w₂ w₃ : WindowState} (h₁ : SameFinished w₁ w₂)
    (h₂ : SameFinished w₂ w₃) : SameFinished w₁ w₃ := fun q => (h₂ q).trans (h₁ q)

section Promises

variable [CustomTrigger κ]

/-- The hooks of a trigger write nothing but the counter of the node they are called for. -/
structure OwnCounter (k : κ) : Prop where
  onElement : ∀ (s : Site) t ws d d', CustomTrigger.onElement k s t ws d = .ok () d' →
    CounterAt s.position d.state d'.state
  onMerge : ∀ (s : Site) ms d d', CustomTrigger.onMerge k s ms d = .ok () d' →
    CounterAt s.position d.state d'.state
  onOnlyFiring : ∀ (s : Site) d d', CustomTrigger.onOnlyFiring k s d = .ok () d' →
    CounterAt s.position d.state d'.state

/-- The hooks of a trigger return wherever timers are accepted. -/
structure NeverFails (k : κ) : Prop where
  onElement : ∀ (s : Site) t ws d, s.Open → ∃ d', CustomTrigger.onElement k s t ws d = .ok () d'
  onMerge : ∀ (s : Site) ms d, s.Open → ∃ d', CustomTrigger.onMerge k s ms d = .ok () d'
  shouldFire : ∀ (s : Site) w, s.Open → ∃ b, CustomTrigger.shouldFire k s w = .ok b
  onOnlyFiring : ∀ (s : Site) d, s.Open → ∃ d', CustomTrigger.onOnlyFiring k s d = .ok () d'

/-- The hooks that a run without merges calls set no timers. -/
structure Timerless (k : κ) : Prop where
  onElement : ∀ (s : Site) t ws d d', CustomTrigger.onElement k s t ws d = .ok () d' →
    d'.timers = d.timers
  onOnlyFiring : ∀ (s : Site) d d', CustomTrigger.onOnlyFiring k s d = .ok () d' →
    d'.timers = d.timers

/-- The hooks that a run without merges calls write nothing but the node they are called for. -/
structure OwnNode (k : κ) : Prop where
  onElement : ∀ (s : Site) t ws d d', CustomTrigger.onElement k s t ws d = .ok () d' →
    NodeAt s.position d.state d'.state
  onOnlyFiring : ∀ (s : Site) d d', CustomTrigger.onOnlyFiring k s d = .ok () d' →
    NodeAt s.position d.state d'.state

/-- A trigger that takes an element does not mark its own node as done. -/
def LeavesOpen (k : κ) : Prop :=
  ∀ (s : Site) t ws d d', CustomTrigger.onElement k s t ws d = .ok () d' →
    d.state.finished s.position = false → d'.state.finished s.position = false

/-- A trigger takes an element in the same way whatever windows it was assigned to. -/
def IgnoresAssigned (k : κ) : Prop :=
  ∀ (s : Site) t ws ws', CustomTrigger.onElement k s t ws = CustomTrigger.onElement k s t ws'

/-- A trigger takes a merge by setting its counter to the sum of the sources' counters. -/
def SumsOnMerge (k : κ) : Prop :=
  ∀ (s : Site) ms d, CustomTrigger.onMerge k s ms d =
    .ok () { d with state := d.state.setCounter s.position (counterOfAll ms s.position) }

/-- The same surroundings, but windows can merge as `m` says. -/
def Scope.withMerging (s : Scope) (m : Bool) : Scope := { s with merging := m }

def Site.withMerging (s : Site) (m : Bool) : Site :=
  { s with toScope := s.toScope.withMerging m }

/-- The hooks count and decide alike in states that look alike, whether or not windows can merge. -/
structure Secluded (k : κ) : Prop where
  onElement : ∀ (s : Site) m t ws w w' d d', SameView s.position w w' →
    CustomTrigger.onElement k s t ws { state := w } = .ok () d →
    CustomTrigger.onElement k (s.withMerging m) t ws { state := w' } = .ok () d' →
    d'.state.counter s.position = d.state.counter s.position
  shouldFire : ∀ (s : Site) m w w', SameView s.position w w' →
    CustomTrigger.shouldFire k (s.withMerging m) w' = CustomTrigger.shouldFire k s w

/-- A trigger writes and reads its own counter only, sets no timers and never fails. -/
structure Discreet (k : κ) : Prop where
  own : OwnCounter k
  returns : NeverFails k
  timerless : Timerless k
  secluded : Secluded k

/-- A trigger writes its own counter only, and fails only if `F`. -/
structure Modest (F : Prop) (k : κ) : Prop where
  own : OwnCounter k
  fails : F ∨ NeverFails k

end Promises

/-- The trigger is not supplied from outside. -/
def OnceTrigger.Builtin : OnceTrigger κ → Prop
  | .custom _ => False
  | _ => True

/-- `P` holds of the trigger if it is custom. -/
def OnceTrigger.IfCustom (P : κ → Prop) : OnceTrigger κ → Prop
  | .custom k => P k
  | _ => True

/-- `P` holds of the custom children. -/
structure EarlyAndLate.Customs (P : κ → Prop) (c : EarlyAndLate κ) : Prop where
  early : c.early.IfCustom P
  late : ∀ t, c.late = some t → t.IfCustom P

/-- `P` holds of the custom triggers of the tree. -/
def Trigger.Customs (P : κ → Prop) : Trigger κ → Prop
  | .once t => t.IfCustom P
  | .earlyAndLate c => c.Customs P

theorem OnceTrigger.IfCustom.mono {P Q : κ → Prop} (h : ∀ k, P k → Q k) {t : OnceTrigger κ}
    (ht : t.IfCustom P) : t.IfCustom Q := by
  cases t with
  | custom k => exact h k ht
  | endOfWindow => trivial
  | never => trivial

theorem EarlyAndLate.Customs.mono {P Q : κ → Prop} (h : ∀ k, P k → Q k) {c : EarlyAndLate κ}
    (hc : c.Customs P) : c.Customs Q :=
  ⟨hc.early.mono h, fun t ht => (hc.late t ht).mono h⟩

theorem EarlyAndLate.Customs.pair {P : κ → Prop} {k k' : κ} (h : P k) (h' : P k') :
    EarlyAndLate.Customs P ⟨.custom k, some (.custom k')⟩ := by
  refine ⟨h, fun t ht => ?_⟩
  cases ht
  exact h'

theorem Trigger.Customs.mono {P Q : κ → Prop} (h : ∀ k, P k → Q k) {t : Trigger κ}
    (ht : t.Customs P) : t.Customs Q := by
  cases t with
  | once t => exact OnceTrigger.IfCustom.mono h ht
  | earlyAndLate c => exact EarlyAndLate.Customs.mono h ht

theorem OnceTrigger.IfCustom.and {P Q R : κ → Prop} (h : ∀ k, P k → Q k → R k)
    {t : OnceTrigger κ} (hp : t.IfCustom P) (hq : t.IfCustom Q) : t.IfCustom R := by
  cases t with
  | custom k => exact h k hp hq
  | endOfWindow => trivial
  | never => trivial

theorem EarlyAndLate.Customs.and {P Q R : κ → Prop} (h : ∀ k, P k → Q k → R k)
    {c : EarlyAndLate κ} (hp : c.Customs P) (hq : c.Customs Q) : c.Customs R :=
  ⟨hp.early.and h hq.early, fun t ht => (hp.late t ht).and h (hq.late t ht)⟩

theorem Trigger.Customs.and {P Q R : κ → Prop} (h : ∀ k, P k → Q k → R k) {t : Trigger κ}
    (hp : t.Customs P) (hq : t.Customs Q) : t.Customs R := by
  cases t with
  | once t => exact OnceTrigger.IfCustom.and h hp hq
  | earlyAndLate c => exact EarlyAndLate.Customs.and h hp hq

/-- The hook takes every state to one that `A` relates to it, and fails only if `F`. -/
def HookDoes (A : WindowState → WindowState → Prop) (F : Prop) (h : Hook Unit) : Prop :=
  ∀ w, Ensures (fun d => d.state = w) h (fun _ d => A w d.state) fun _ _ => F

section Modesty

variable [CustomTrigger κ] {F : Prop} {k : κ} {s : Site}

theorem Discreet.modest (hk : Discreet k) : Modest F k := ⟨hk.own, .inr hk.returns⟩

theorem OwnCounter.ownNode (hk : OwnCounter k) : OwnNode k where
  onElement s t ws d d' h := (hk.onElement s t ws d d' h).nodeAt
  onOnlyFiring s d d' h := (hk.onOnlyFiring s d d' h).nodeAt

theorem HookDoes.of_ok {A : WindowState → WindowState → Prop} {h : Hook Unit}
    (hA : ∀ d d', h d = .ok () d' → A d.state d'.state) (hF : F ∨ ∀ d, ∃ d', h d = .ok () d') :
    HookDoes A F h := by
  intro w d hx
  obtain rfl := hx
  cases hd : h d with
  | ok _ d' => exact hA d d' hd
  | error e d' =>
    rcases hF with hF | hF
    · exact hF
    · obtain ⟨d'', h'⟩ := hF d
      rw [hd] at h'
      cases h'

theorem Modest.onElement (hk : Modest F k) (hs : s.Open) (t : Timestamp) (ws : List Window) :
    HookDoes (CounterAt s.position) F (CustomTrigger.onElement k s t ws) :=
  .of_ok (hk.own.onElement s t ws) (hk.fails.imp_right fun h d => h.onElement s t ws d hs)

theorem Modest.onMerge (hk : Modest F k) (hs : s.Open) (ms : List MergeSource) :
    HookDoes (CounterAt s.position) F (CustomTrigger.onMerge k s ms) :=
  .of_ok (hk.own.onMerge s ms) (hk.fails.imp_right fun h d => h.onMerge s ms d hs)

theorem Modest.onOnlyFiring (hk : Modest F k) (hs : s.Open) :
    HookDoes (CounterAt s.position) F (CustomTrigger.onOnlyFiring k s) :=
  .of_ok (hk.own.onOnlyFiring s) (hk.fails.imp_right fun h d => h.onOnlyFiring s d hs)

theorem Modest.shouldFire (hk : Modest F k) (hs : s.Open) {w : WindowState} {e : TriggerError}
    (h : CustomTrigger.shouldFire k s w = .error e) : F := by
  rcases hk.fails with hF | hF
  · exact hF
  · obtain ⟨b, h'⟩ := hF.shouldFire s w hs
    rw [h] at h'
    cases h'

end Modesty

end PaneTriggers
