import PaneTriggers.Proofs.TreeEffects

/-!
# Which timers a tree asks for

`Asks T act` says that `act` adds no timer outside `T` to those asked for so far. A composite whose
custom children set no timers asks for the end of the window when it takes an element, and for
nothing when it fires.
-/

namespace PaneTriggers

variable {κ α β : Type} {T : TimeDomain × Timestamp → Prop} {s : Scope}

/-- The step adds timers in `T` only. -/
def Asks (T : TimeDomain × Timestamp → Prop) (act : Eval κ α) : Prop :=
  Ensures (fun p => ∀ x ∈ p.timers, T x) act (fun _ p => ∀ x ∈ p.timers, T x) fun _ _ => True

namespace Asks

theorem bind {x : Eval κ α} {f : α → Eval κ β} (hx : Asks T x) (hf : ∀ a, Asks T (f a)) :
    Asks T (x >>= f) :=
  Ensures.bind hx hf

theorem pure {a : α} : Asks T (Pure.pure a : Eval κ α) := Ensures.pure fun _ h => h

theorem throw {e : TriggerError} : Asks T (throw e : Eval κ α) := Ensures.throw fun _ _ => trivial

theorem get : Asks T (MonadState.get : Eval κ (Progress κ)) := Ensures.get fun _ h => h

theorem change (f : WindowState → WindowState) : Asks T (Eval.change f : Eval κ Unit) :=
  Ensures.modify fun _ h => h

theorem hook {h : Hook Unit}
    (hh : ∀ w d, h { state := w } = .ok () d → ∀ x ∈ d.timers, T x) :
    Asks T (Eval.hook h : Eval κ Unit) := by
  intro p hp
  unfold Eval.hook
  cases hr : h { state := p.state } with
  | ok _ d =>
    intro x hx
    rcases List.mem_append.1 hx with hx | hx
    · exact hp x hx
    · exact hh p.state d hr x hx
  | error e d => trivial

theorem call {k : κ} {i : Site} {o : Occasion} {h : Hook Unit}
    (hh : ∀ w d, h { state := w } = .ok () d → ∀ x ∈ d.timers, T x) :
    Asks T (Eval.call k i o h) :=
  bind get fun _ => bind (Ensures.modify fun _ h => h) fun _ => hook hh

end Asks

theorem EarlyAndLate.retire_asks {c : EarlyAndLate κ} : Asks T c.retire := by
  refine Asks.bind (Asks.change _) fun _ => Asks.bind (Asks.change _) fun _ => ?_
  cases c.lateAt .root with
  | some late => exact Asks.change _
  | none => exact Asks.change _

/-- The timer that the end of the window asks for. -/
def Scope.AtEnd (s : Scope) (x : TimeDomain × Timestamp) : Prop :=
  x = (.eventTime, s.window.maxTimestamp)

variable [CustomTrigger κ]

namespace Leaf

variable {l : Leaf κ}

theorem onElement_asks (hk : l.trigger.IfCustom Timerless) {t : Timestamp} {ws : List Window} :
    Asks s.AtEnd (l.onElement s t ws) := by
  obtain ⟨p, trigger⟩ := l
  cases trigger with
  | endOfWindow =>
    refine Asks.hook fun w d hd x hx => ?_
    unfold Site.setTimer at hd
    rcases hr : (site ⟨p, .endOfWindow⟩ s : Site).refusal? .eventTime with _ | ⟨_ | reason⟩ <;>
      rw [hr] at hd <;> cases hd
    exact List.mem_singleton.1 hx
  | never => exact Asks.pure
  | custom k =>
    refine Asks.call fun w d hd x hx => ?_
    rw [hk.onElement _ _ _ _ _ hd] at hx
    cases hx

theorem onFire_asks (hk : l.trigger.IfCustom Timerless) : Asks T (l.onFire s) := by
  obtain ⟨p, trigger⟩ := l
  have mark : Asks T (setFinished ⟨p, trigger⟩ true) := Asks.change _
  have still : Asks T (pure PUnit.unit : Eval κ PUnit) := Asks.pure
  cases trigger with
  | endOfWindow => exact still.bind fun _ => mark
  | never => exact still.bind fun _ => mark
  | custom k =>
    refine Asks.bind (Asks.call fun w d hd x hx => ?_) fun _ => mark
    rw [hk.onOnlyFiring _ _ _ hd] at hx
    cases hx

theorem ask_asks : Asks T (l.ask s) := by
  refine Asks.bind Asks.get fun a => Asks.bind (Ensures.modify fun _ h => h) fun _ => ?_
  cases l.ready s a.state with
  | ok b => exact Asks.pure
  | error e => exact Asks.throw

end Leaf

namespace EarlyAndLate

variable {c : EarlyAndLate κ}

theorem onElement_asks (hc : c.Customs Timerless) (t : Timestamp) (ws : List Window) :
    Asks s.AtEnd ((Node.root (.earlyAndLate c)).onElement s t ws) := by
  have leaf : ∀ l ∈ (Node.root (.earlyAndLate c)).leaves, Asks s.AtEnd (l.onElement s t ws) :=
    fun l hl => Leaf.onElement_asks (hc.leaves l hl)
  unfold Node.onElement
  dsimp only [Node.root]
  refine Ensures.ite (fun _ => Ensures.forM leaf) fun _ => Asks.bind Asks.get fun a => ?_
  rcases hf : Node.firstUnfinished? ⟨.root, .earlyAndLate c⟩ a.state with e | l
  · exact Asks.throw
  · exact leaf l (mem_of_firstUnfinished hf)

theorem onFire_asks (hc : c.Customs Timerless) :
    Asks T ((Node.root (.earlyAndLate c)).onFire s) := by
  have early : Asks T ((c.earlyAt .root).onFire s) := Leaf.onFire_asks hc.early
  rw [Node.root, Node.onFire_earlyAndLate]
  refine Asks.bind Asks.get fun a => Ensures.ite (fun _ => ?_) fun _ =>
    Ensures.ite (fun _ => ?_) fun _ => ?_
  · rcases hl : c.late with _ | t
    · simp only [lateAt, hl, Option.map_none]
      exact Asks.change _
    · simp only [lateAt, hl, Option.map_some]
      exact Asks.bind (Leaf.onFire_asks (hc.late t hl)) fun _ =>
        Asks.bind (Asks.change _) fun _ => Asks.change _
  · rw [Node.endFiring_earlyAndLate]
    refine Asks.bind Leaf.ask_asks fun b => ?_
    exact Ensures.ite (fun _ => Asks.bind early fun _ => retire_asks) fun _ => retire_asks
  · exact Asks.bind early fun _ => Asks.bind (Asks.change _) fun _ => Asks.change _

end EarlyAndLate

end PaneTriggers
