import PaneTriggers.Proofs.Changes
import PaneTriggers.Proofs.ScriptedConduct

/-!
# What a pane calls and arms again

A runner records the calls that it makes of custom hooks. A pane of a composite asks the child whose
turn it is, and past the end of the window a second time if that is the early child, and then fires
it (`EarlyAndLate.paneCalls`). The early child is fired only if it is ready itself, since the end of
the window makes the composite ready without it. What the pane leaves is listed in
`EarlyAndLate.Rearmed`: unless the root is done, the child whose turn is next starts afresh.
-/

namespace PaneTriggers

open Eval

variable {κ σ : Type} {s : Scope} {w : WindowState} {cs : List (Call κ)}

/-! ## Calls of an evaluation -/

namespace Eval

variable {E : TriggerError → Progress κ → Prop}

theorem change_calls {f : WindowState → WindowState} :
    Ensures (fun p : Progress κ => p.calls = cs) (change f) (fun _ p => p.calls = cs) E :=
  .modify fun _ h => h

theorem hook_calls {h : Hook Unit} :
    Ensures (fun p : Progress κ => p.calls = cs) (hook h) (fun _ p => p.calls = cs)
      fun _ _ => True := by
  intro p hp
  unfold hook
  cases h { state := p.state } with
  | ok _ d => exact hp
  | error e d => trivial

theorem call_calls {k : κ} {i : Site} {o : Occasion} {h : Hook Unit} :
    Ensures (fun p => p.state = w ∧ p.calls = cs) (call k i o h)
      (fun _ p => p.calls = cs ++ [⟨k, i, o, w⟩]) fun _ _ => True := by
  refine .bind (Q := fun a p => a.state = w ∧ p.calls = cs) (.get fun _ h => h) fun a => ?_
  refine .of_fact fun ha => .bind (.modify fun p hp => ?_) fun _ => hook_calls
  rw [hp, ha]

end Eval

variable [CustomTrigger κ]

namespace Leaf

variable {l : Leaf κ}

/-- The calls made when the leaf fires. -/
def firings (l : Leaf κ) (s : Scope) (w : WindowState) : List (Call κ) :=
  match l.trigger with
  | .custom k => [⟨k, l.site s, .onlyFiring, w⟩]
  | _ => []

theorem ask_calls : Ensures (fun p => p.state = w ∧ p.calls = cs) (l.ask s)
    (fun b p => l.ready s w = .ok b ∧ p.state = w ∧ p.calls = cs ++ l.queries s w)
    fun _ _ => True := by
  refine .bind (Q := fun a p => a.state = w ∧ p.state = w ∧ p.calls = cs)
    (.get fun _ h => ⟨h.1, h⟩) fun a => .of_fact fun ha => ?_
  rw [ha]
  refine .bind (Q := fun _ p => p.state = w ∧ p.calls = cs ++ l.queries s w)
    (.modify fun p hp => ⟨hp.1, congrArg (· ++ l.queries s w) hp.2⟩) fun _ => ?_
  cases l.ready s w with
  | ok b => exact .pure fun p hp => ⟨rfl, hp⟩
  | error e => exact .throw fun _ _ => trivial

theorem onFire_calls : Ensures (fun p => p.state = w ∧ p.calls = cs) (l.onFire s)
    (fun _ p => p.calls = cs ++ l.firings s w) fun _ _ => True := by
  obtain ⟨q, trigger⟩ := l
  have still : Ensures (fun p : Progress κ => p.state = w ∧ p.calls = cs)
      (pure PUnit.unit : Eval κ PUnit) (fun _ p => p.calls = cs ++ []) fun _ _ => True :=
    .pure fun p hp => by rw [hp.2, List.append_nil]
  have mark : ∀ {cs : List (Call κ)}, Ensures (fun p : Progress κ => p.calls = cs)
      (setFinished ⟨q, trigger⟩ true) (fun _ p => p.calls = cs) fun _ _ => True := change_calls
  cases trigger with
  | endOfWindow => exact .bind still fun _ => mark
  | never => exact .bind still fun _ => mark
  | custom k => exact .bind call_calls fun _ => mark

end Leaf

namespace EarlyAndLate

variable {c : EarlyAndLate κ}

/-- The calls that a firing makes of a composite that is ready. -/
def paneCalls (c : EarlyAndLate κ) (s : Scope) (w : WindowState) : List (Call κ) :=
  let early := c.earlyAt .root
  if w.finished .early then (c.lateAt .root).elim [] fun late => late.firings s w
  else
    (if s.ended then early.queries s w else []) ++
      if early.ready s w = .ok true then early.firings s w else []

omit [CustomTrigger κ] in
theorem retire_calls : Ensures (fun p : Progress κ => p.calls = cs) c.retire
    (fun _ p => p.calls = cs) fun _ _ => True := by
  refine .bind change_calls fun _ => .bind change_calls fun _ => ?_
  cases c.lateAt .root with
  | some late => exact change_calls
  | none => exact change_calls

theorem onFire_calls (hready : (Node.root (.earlyAndLate c)).ready s w = .ok true) :
    Ensures (fun p => p.state = w ∧ p.calls = cs) ((Node.root (.earlyAndLate c)).onFire s)
      (fun _ p => p.calls = cs ++ c.paneCalls s w) fun _ _ => True := by
  rw [Node.root, Node.onFire_earlyAndLate]
  refine .bind (Q := fun a p => a.state = w ∧ p.state = w ∧ p.calls = cs)
    (.get fun p hp => ⟨hp.1, hp⟩) fun a => .of_fact fun ha => ?_
  rw [ha]
  refine .ite (fun he => ?lateFiring) fun he => .ite (fun hs => ?endFiring) fun hs => ?earlyFiring
  case lateFiring =>
    have he : w.finished .early = true := he
    unfold paneCalls
    cases hl : c.lateAt .root with
    | none =>
      rw [if_pos he, Option.elim_none, List.append_nil]
      exact change_calls.mono (fun _ h => h.2) (fun _ _ h => h) fun _ _ h => h
    | some late =>
      rw [if_pos he, Option.elim_some]
      exact .bind Leaf.onFire_calls fun _ => .bind change_calls fun _ => change_calls
  case endFiring =>
    have he : w.finished .early = false := Bool.eq_false_iff.2 he
    rw [Node.endFiring_earlyAndLate]
    refine .bind Leaf.ask_calls fun b => .of_fact fun hb => ?_
    have hcalls : c.paneCalls s w = (c.earlyAt .root).queries s w ++
        if b = true then (c.earlyAt .root).firings s w else [] := by
      simp only [paneCalls, he, hs, hb, Bool.false_eq_true, if_false, if_true, Except.ok.injEq]
    rw [hcalls, ← List.append_assoc]
    refine .ite (fun ht => ?_) fun hf => ?_
    · rw [if_pos ht]
      exact .bind Leaf.onFire_calls fun _ => retire_calls
    · rw [if_neg hf, List.append_nil]
      exact retire_calls.mono (fun _ h => h.2) (fun _ _ h => h) fun _ _ h => h
  case earlyFiring =>
    have he : w.finished .early = false := Bool.eq_false_iff.2 he
    have hs : s.ended = false := Bool.eq_false_iff.2 hs
    have hearly : (c.earlyAt .root).ready s w = .ok true := by
      rw [ready_of_early he, hs] at hready
      rcases hr : (c.earlyAt .root).ready s w with e | b <;> rw [hr] at hready
      · cases hready
      · simpa [Except.map] using hready
    have hcalls : c.paneCalls s w = (c.earlyAt .root).firings s w := by
      simp [paneCalls, he, hs, hearly]
    rw [hcalls]
    exact .bind Leaf.onFire_calls fun _ => .bind change_calls fun _ => change_calls

/-! ## What a pane leaves -/

/-- What a pane makes of the nodes of an open composite. Without a late child the root is done with
the pane at the end of the window. Otherwise it is next the turn of the late child, or of the early
child where that was not done and the window has not ended, and the child whose turn it is starts
afresh. -/
structure Rearmed (c : EarlyAndLate κ) (ended : Bool) (w w' : WindowState) : Prop where
  root : w'.finished .root = true ↔ c.late = none ∧ w.finished .early = false ∧ ended = true
  turn : active w' = if w.finished .early = false ∧ ended = false then .early else .late
  next : w'.finished .root = false → w'.node (active w') = {}
  retired : w.finished .early = false → ended = true → w'.node .early = { finished := true }

omit [CustomTrigger κ] in
theorem rearmed_fired {ended : Bool} {w₁ : WindowState} (hroot : w.finished .root = false)
    (hlate : ∀ t, c.late = some t → w.finished .late = false)
    (hturn : w.finished .early = true → c.late ≠ none) (hsame : SameFinished w w₁) :
    c.Rearmed ended w (c.fired ended w₁) := by
  have hearly : (c.fired ended w₁).finished .early = (w.finished .early || ended) := by
    rw [finished_early_fired, hsame]
  have hdone : (c.fired ended w₁).finished .root =
      (c.late.isNone && (w.finished .early || ended)) := by
    rw [finished_root_fired, hsame, hsame, hroot, Bool.false_or]
  have hnext : active (c.fired ended w₁) =
      if w.finished .early = false ∧ ended = false then .early else .late := by
    unfold active
    rw [hearly]
    rcases w.finished .early <;> cases ended <;> rfl
  have hcounter : w.finished .early = false → (c.fired ended w₁).counter .early = 0 :=
    fun he => counter_early_fired ((hsame _).trans he)
  refine ⟨?root, hnext, fun hopen => ?next, fun he hend => ?retired⟩
  case root =>
    rw [hdone]
    rcases hc : c.late with _ | t
    · have he : w.finished .early = false := Bool.eq_false_iff.2 fun he => hturn he hc
      simp [he]
    · simp
  case next =>
    rw [hnext]
    split_ifs with h
    · have hopen : (c.fired ended w₁).finished .early = false := by rw [hearly, h.1, h.2]; rfl
      exact NodeState.ext hopen (hcounter h.1)
    · have hpast : w.finished .early = true ∨ ended = true := by
        rcases he : w.finished .early
        · exact .inr (Bool.not_eq_false _ ▸ fun hend => h ⟨he, hend⟩)
        · exact .inl rfl
      rcases hc : c.late with _ | t
      · rw [hdone, hc] at hopen
        rcases hpast with h | h <;> simp [h] at hopen
      · have hlate₁ : (c.fired ended w₁).finished .late = false := by
          rw [finished_late_fired, hsame, hlate t hc, Bool.false_and]
        rw [← hsame] at hpast
        exact NodeState.ext hlate₁ (counter_late_fired hc hpast)
  case retired =>
    have hmarked : (c.fired ended w₁).finished .early = true := by rw [hearly, hend, Bool.or_true]
    exact NodeState.ext hmarked (hcounter he)

end EarlyAndLate

/-! ## Calls of a runner -/

namespace Runner

variable {v : Seen κ} {u : Window}

omit [CustomTrigger κ] in
theorem usingStore_calls {P : List (Call κ) → Prop} {α : Type} {act : EStateM StoreError σ α} :
    Ensures (fun r : Runner κ σ => P r.calls) (usingStore act) (fun _ r => P r.calls)
      fun _ _ => True :=
  (usingStore_keeps fun _ _ h => h).onFail fun _ _ _ => trivial

variable [StateStore σ] [LawfulStore σ]

omit [CustomTrigger κ] in
theorem windowState_calls :
    Ensures (fun r : Runner κ σ => r.seen = v ∧ r.calls = cs) (windowState u)
      (fun a r => a = v.store u ∧ r.seen = v ∧ r.calls = cs) fun _ _ => True :=
  (windowState_ensures.both (usingStore_calls (P := (· = cs)))).mono (fun _ h => h)
    (fun _ _ h => ⟨h.1.1, h.1.2, h.2⟩) fun _ _ _ => trivial

theorem shouldFire_calls :
    Ensures (fun r : Runner κ σ => r.seen = v ∧ r.calls = cs) (shouldFire u)
      (fun b r => b = true → r.calls = cs ++ v.root.queries (v.scope u) (v.store u))
      fun _ _ => True := by
  refine .bind windowState_calls fun a => .of_fact fun ha => ?_
  refine .bind (Q := fun b r => (b.seen = v ∧ b.calls = cs) ∧ r.seen = v) (.get fun _ h => ⟨h, h.1⟩)
    fun b => .of_fact fun ⟨hb, hcalls⟩ => .ite (fun _ => .pure fun _ _ h => by cases h) fun _ => ?_
  obtain rfl := hb
  refine .bind
    (Q := fun _ r => r.calls = cs ++ b.seen.root.queries (b.seen.scope u) (b.seen.store u))
    (.set fun r _ => ?_) fun _ => ?_
  · rw [← ha, ← hcalls]
    rfl
  · cases b.root.ready (b.scope u) a with
    | ok f => exact .pure fun r h _ => h
    | error e => exact .throw fun _ _ => trivial

omit [CustomTrigger κ] in
theorem evaluating_calls {act : Scope → Node κ → Eval κ Unit} :
    Ensures (fun r : Runner κ σ => r.seen = v ∧ r.calls = cs) (evaluating u w act)
      (fun _ r => ∃ p, act (v.scope u) v.root { state := w } = .ok () p ∧ r.calls = cs ++ p.calls)
      fun _ _ => True := by
  rintro r ⟨rfl, rfl⟩
  unfold evaluating
  cases h : act (r.scope u) r.root { state := w } with
  | ok _ p => exact ⟨p, h, rfl⟩
  | error e p => trivial

theorem onFire_calls : Ensures (fun r : Runner κ σ => r.seen = v ∧ r.calls = cs) (onFire u)
    (fun _ r => ∃ p, v.firing u = .ok () p ∧ r.calls = cs ++ p.calls) fun _ _ => True := by
  let Fired : List (Call κ) → Prop := fun calls =>
    ∃ p, v.firing u = .ok () p ∧ calls = cs ++ p.calls
  refine .bind windowState_calls fun a => .of_fact fun ha => ?_
  rw [ha]
  refine .bind (Q := fun _ r => Fired r.calls) evaluating_calls fun a' =>
    .bind (Q := fun _ r => Fired r.calls) (.get fun _ h => h) fun b =>
      .bind (usingStore_calls (P := Fired)) fun _ => ?_
  exact .bind (Q := fun _ r => Fired r.calls) (.modify fun _ h => h) fun _ =>
    .ite (fun _ => .modify fun _ h => h) fun _ => .pure fun _ h => h

/-- The calls of a firing: those to find the window ready, and then those of the firing. -/
theorem fireIfReady_calls :
    Ensures (fun r : Runner κ σ => r.seen = v ∧ r.calls = cs) (fireIfReady u)
      (fun o r => o = .notReady ∨ ∃ p, v.firing u = .ok () p ∧
        r.calls = cs ++ v.root.queries (v.scope u) (v.store u) ++ p.calls) fun _ _ => True := by
  refine .bind (shouldFire_calls.both shouldFire_ensures |>.mono (fun _ h => ⟨h, h.1⟩)
    (fun _ _ h => h) fun _ _ _ => trivial) fun b => .ite (fun hb => ?_) fun _ =>
      .pure fun _ _ => .inl rfl
  refine .bind (onFire_calls.mono (fun _ h => ⟨h.2.2, h.1 hb⟩) (fun _ _ h => h) fun _ _ h => h)
    fun _ => ?_
  let Fired : List (Call κ) → Prop := fun calls => ∃ p, v.firing u = .ok () p ∧
    calls = cs ++ v.root.queries (v.scope u) (v.store u) ++ p.calls
  refine .bind (Q := fun _ r => Fired r.calls) ?_ fun c => .pure fun _ h => .inr h
  exact .bind (usingStore_calls (P := Fired)) fun _ => .bind (Q := fun _ r => Fired r.calls)
    (.get fun _ h => h) fun _ => .pure fun _ h => h

variable {c : EarlyAndLate κ} {r : Runner κ σ}

/-- A pane of a composite whose late child is not done calls, after the question whether it is
ready, the hooks of its children that it should, and no others, and leaves the child whose turn is
next armed. -/
theorem pane_calls (hown : c.Customs OwnNode) (hret : c.Customs NeverFails)
    (hF : ¬LawfulStore.Faulty σ) (hroot : r.root = .root (.earlyAndLate c))
    (hlate : ∀ t, c.late = some t → (r.seen.store u).finished .late = false) :
    let s := r.scope u
    let before := r.seen.store u
    ∃ o r', r.step (.fireIfReady u) = (.ok (.outcome o), r') ∧
      (o = .notReady ∧ r'.seen = r.seen ∨
        o = .fired ((r'.seen.store u).finished .root) ∧
          r'.calls = r.calls ++ (r.root.queries s before ++ c.paneCalls s before) ∧
          c.Rearmed s.ended before (r'.seen.store u)) := by
  intro s before
  have hs : s.Open := r.seen.scope_open u
  have hfiring : r.seen.firing u = (Node.root (.earlyAndLate c)).onFire s { state := before } := by
    unfold firing
    rw [show r.seen.root = _ from hroot]
    rfl
  have hleaves := EarlyAndLate.onFire_ownNode (F := False) (w := before) hown (.inr ⟨hs, hret⟩)
  obtain ⟨o, r', hr', hcases⟩ := fireIfReady_returns (r := r) (w := u) hF
    (fun _ he => readiness_returns (t := .earlyAndLate c) (v := r.seen) hroot hret he)
    fun e p hp => hleaves.of_error rfl (hfiring ▸ hp)
  refine ⟨o, r', step_of_ok (bind_of_ok hr'), ?_⟩
  rcases hcases with ⟨-, ho, hsame⟩ | ⟨hready, p, hp, ho, hfired⟩
  · exact .inl ⟨ho, hsame⟩
  · obtain ⟨hopen, hready⟩ := readiness_true_iff.1 hready
    rw [show r.seen.root = _ from hroot] at hready
    rw [closedIn_root (v := r.seen) hroot] at hopen
    rw [hfiring] at hp
    have hafter : r'.seen.store u = p.state := by rw [hfired, fired_store, Contents.put_same]
    refine .inr ⟨?outcome, ?calls, ?rearmed⟩
    case outcome =>
      rw [ho, hafter, closedIn_root (v := r.seen) hroot]
    case calls =>
      obtain h | ⟨p', hp', hcalls⟩ := (fireIfReady_calls (v := r.seen)).of_ok ⟨rfl, rfl⟩ hr'
      · rw [ho] at h
        cases h
      · obtain rfl : p = p' := by
          rw [hfiring, hp] at hp'
          cases hp'
          rfl
        have hpane := (EarlyAndLate.onFire_calls hready).of_ok ⟨rfl, rfl⟩ hp
        rw [hcalls, hpane, List.append_assoc]
        rfl
    case rearmed =>
      obtain ⟨w₁, -, hsame, hstate⟩ := hleaves.of_ok rfl hp
      rw [hafter, hstate]
      refine EarlyAndLate.rearmed_fired hopen hlate (fun he hc => ?_) hsame
      rw [EarlyAndLate.ready_of_late he, hc] at hready
      cases hready

/-- The window has ended with its early child ready. The child is asked twice and fires, and it is
the turn of the late child, whose node is at its default. -/
theorem pane_calls_at_end :
    let k : ScriptedTrigger := { threshold := .clamp 2 }
    let c : EarlyAndLate ScriptedTrigger := ⟨.custom k, some (.custom k)⟩
    let u : Window := ⟨.clamp 0, .clamp 10⟩
    let r := (start (.earlyAndLate c) { supportsMerging := true } MemoryStore.empty).run
      [.element [u] (.clamp 3), .element [u] (.clamp 4), .advance (.clamp 10)]
    let s := r.scope u
    let before := r.seen.store u
    let site := (c.earlyAt .root).site s
    before.counter .early = .clamp 2 ∧ before.counter .late = .clamp 2 ∧
      ∃ r', r.step (.fireIfReady u) = (.ok (.outcome (.fired false)), r') ∧
        r'.calls = r.calls ++ [⟨k, site, .query, before⟩, ⟨k, site, .query, before⟩,
          ⟨k, site, .onlyFiring, before⟩] ∧
        (r'.seen.store u).node .early = { finished := true } ∧
        (r'.seen.store u).node .late = {} := by
  intro k c u r s before site
  have hroot : r.root = .root (.earlyAndLate c) := run_root _ _
  have hearly : before.finished (c.earlyAt .root).position = false := by decide +kernel
  have hended : s.ended = true := by decide +kernel
  have hready : (c.earlyAt .root).ready s before = .ok true := by decide +kernel
  have hqueries : r.root.queries s before = [⟨k, site, .query, before⟩] := by
    rw [hroot]
    simp only [Node.root, Node.queries_earlyAndLate, hearly, Bool.false_eq_true, if_false]
    rfl
  have hpane : c.paneCalls s before =
      [⟨k, site, .query, before⟩, ⟨k, site, .onlyFiring, before⟩] := by
    simp only [EarlyAndLate.paneCalls, show before.finished .early = false from hearly, hended,
      hready, Bool.false_eq_true, if_false, if_true]
    rfl
  obtain ⟨o, r', hr', h⟩ := pane_calls (c := c) (r := r) (u := u)
    (.pair ScriptedTrigger.ownNode ScriptedTrigger.ownNode)
    (.pair (ScriptedTrigger.neverFails rfl) (ScriptedTrigger.neverFails rfl)) id hroot
    fun _ _ => by decide +kernel
  rcases h with ⟨-, hsame⟩ | ⟨ho, hcalls, hrearmed⟩
  · have hcount :
        (r.step (.fireIfReady u)).2.seen.telemetry.firings ≠ r.seen.telemetry.firings := by
      decide +kernel
    rw [hr', hsame] at hcount
    exact absurd rfl hcount
  · have hopen : (r'.seen.store u).finished .root = false := by
      refine Bool.eq_false_iff.2 fun h => ?_
      cases (hrearmed.root.1 h).1
    have hturn := hrearmed.turn.trans
      (if_neg fun h => Bool.false_ne_true (h.2.symm.trans hended))
    have hlate := hrearmed.next hopen
    rw [hturn] at hlate
    rw [hopen] at ho
    refine ⟨by decide +kernel, by decide +kernel, r', ho ▸ hr', ?_,
      hrearmed.retired hearly hended, hlate⟩
    rw [hcalls]
    change _ ++ (r.root.queries s before ++ c.paneCalls s before) = _
    rw [hqueries, hpane]
    rfl

end Runner

end PaneTriggers
