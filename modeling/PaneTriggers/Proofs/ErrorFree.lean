import PaneTriggers.Proofs.Changes
import PaneTriggers.Proofs.Phases

/-!
# Runs without errors

A composite fails an element if no child of it is open, and a runner hands over the elements of all
windows whose root is open. That a window with an open root has an open child is an invariant of
runs, which the phases give (`EarlyAndLate.Phase.hasOpenChild`). A composite also fails if it looks
for a child that is not there. It looks for its early child, and for its late child if there is one,
and these are found (`Node.child_early`, `Node.child_late`). So if the custom triggers and the store
never fail, nothing does (`Runner.run_without_errors`).
-/

namespace PaneTriggers

variable {κ σ : Type}

namespace Runner

/-- The answer is not an error and tells of none. -/
def Flawless : Except RunnerError Answer → Prop
  | .error _ => False
  | .ok (.outcomes os) => ∀ o ∈ os, o.2.isOk = true
  | .ok _ => True

/-- The runner has the tree as its root, and the windows of a composite show its phases. -/
def Orderly : Trigger κ → Seen κ → Prop
  | .once t, v => v.root = .root (.once t)
  | .earlyAndLate c, v => Phased c v

variable {t : Trigger κ} {v : Seen κ} {I : Seen κ → Prop}

theorem Orderly.advance (h : Orderly t v) (now : Timestamp) : Orderly t (v.advance now).2 := by
  cases t with
  | once t => exact (v.advance_root now).trans h
  | earlyAndLate c => exact Phased.advance h now

variable [CustomTrigger κ] {F : Prop}

theorem once_invariant {t : OnceTrigger κ} (ht : t.IfCustom (Modest F)) :
    Invariant F (Orderly (.once t)) where
  drop _ _ _ h := h
  element v ws at' w h _ := by
    rw [h]
    exact (Leaf.onElement_ensures (l := ⟨.root, t⟩) (A := CounterAt) (fun _ _ => .refl _ _)
      (v.scope_open w) at' ws (ht.mono fun k hk => hk.onElement (v.scope_open w) at' ws)).mono
      (fun p hp => by rw [hp]) (fun _ _ _ => h) fun _ _ hf => hf
  ready v w h e he := by
    unfold readiness at he
    split_ifs at he
    rw [h] at he
    exact Leaf.ready_error (l := ⟨.root, t⟩) (s := v.scope w)
      (ht.mono fun k hk _ _ => hk.shouldFire (v.scope_open w)) he
  merge v ws d h _ := by
    rw [h]
    exact (Leaf.onMerge_ensures (l := ⟨.root, t⟩) (A := CounterAt) CounterAt.refl
      (ht.mono fun k hk => hk.onMerge (v.scope_open d) _)).mono (fun p hp => by rw [hp])
      (fun _ _ _ => merged_root.trans h) fun _ _ hf => hf
  collect _ _ h _ := h
  interrupted _ _ _ _ h hi := by
    obtain ⟨ts, rfl⟩ := hi
    exact h
  halfMerged _ _ _ _ _ _ h _ := h

theorem once_firing {t : OnceTrigger κ} (ht : t.IfCustom (Modest F)) :
    FiringKeeps F (Orderly (.once t)) := by
  intro v w h
  rw [h]
  exact (Leaf.onFire_ensures (l := ⟨.root, t⟩) (A := CounterAt) CounterAt.refl
    (ht.mono fun k hk => hk.onOnlyFiring (v.scope_open w))).mono (fun p hp => by rw [hp])
    (fun _ _ _ => fired_root.trans h) fun _ _ hf => hf

theorem orderly_invariant (ht : t.Customs (Modest F)) : Invariant F (Orderly t) := by
  cases t with
  | once t => exact once_invariant ht
  | earlyAndLate c => exact phased_invariant ht

theorem orderly_firing (ht : t.Customs (Modest F)) : FiringKeeps F (Orderly t) := by
  cases t with
  | once t => exact once_firing ht
  | earlyAndLate c => exact phased_firing ht

variable [StateStore σ]

/-- Only a tick tells of errors without being one. -/
theorem flawless_of_returned {P : Runner κ σ → Prop} {op : Operation}
    (hop : ∀ now, op ≠ .tick now) :
    Ensures P (perform op) (fun a _ => Flawless (.ok a)) fun _ _ => True := by
  have any : ∀ {α : Type} (act : RunnerM κ σ α),
      Ensures P act (fun _ _ => True) fun _ _ => True := fun act r _ => by
    cases act r <;> trivial
  cases op with
  | tick now => exact absurd rfl (hop now)
  | element | merge | advance | shouldFire | fire | fireIfReady | isClosed | windowState | collect =>
    exact .map (any _)

variable [LawfulStore σ]

namespace Invariant

theorem fireEach_flawless (hI : Invariant False I) (hfire : FiringKeeps False I)
    (hF : ¬LawfulStore.Faulty σ) : ∀ {ws : List Window},
    Ensures (fun r : Runner κ σ => I r.seen) (fireEach ws)
      (fun os r => (∀ o ∈ os, o.2.isOk = true) ∧ I r.seen) fun _ _ => False
  | [] => .pure fun _ h => ⟨by simp, h⟩
  | w :: ws => by
    have htried : Ensures (fun r : Runner κ σ => I r.seen) (attempt (fireIfReady w))
        (fun o r => o.isOk = true ∧ I r.seen) fun _ _ => False :=
      attempt_ensures ((hI.fireIfReady_keeps hfire hF).mono (fun _ h => h) (fun _ _ h => ⟨rfl, h⟩)
        fun _ _ h => h.1.elim)
    refine .bind htried fun o => .of_fact fun ho => .bind (hI.fireEach_flawless hfire hF) fun os =>
      .pure fun r h => ⟨?_, h.2⟩
    simpa [ho] using h.1

/-- If the tree and the store do not fail, no operation does. -/
theorem perform_flawless (hI : Invariant False I) (hfire : FiringKeeps False I)
    (hadvance : ∀ now v, I v → I (v.advance now).2) (hF : ¬LawfulStore.Faulty σ) {op : Operation}
    (hop : op.HasSources) : Ensures (fun r : Runner κ σ => I r.seen) (perform op)
      (fun a r => Flawless (.ok a) ∧ I r.seen) fun _ _ => False := by
  -- A tick answers with the errors of its firings, so it is looked into.
  by_cases htick : ∃ now, op = .tick now
  · obtain ⟨now, rfl⟩ := htick
    have hadvanced : Ensures (fun r : Runner κ σ => I r.seen) (modifyGet (advance now))
        (fun _ r => I r.seen) fun _ _ => False :=
      .of_each (f := seen) fun v hv => advance_ensures.onReturn fun _ r hr => by
        rw [hr.2]
        exact hadvance now v hv
    exact .map (.bind hadvanced fun _ => hI.fireEach_flawless hfire hF)
  · have hkeeps : Keeps False I (perform op : RunnerM κ σ Answer) :=
      hI.perform_keeps hF hop (fun _ => hfire) fun now _ v => hadvance now v
    exact ((flawless_of_returned fun now h => htick ⟨now, h⟩).and hkeeps).onFail
      fun _ _ h => h.2.1

/-- If no operation of a run fails, no answer is an error. -/
theorem answers_flawless (hI : Invariant False I) (hfire : FiringKeeps False I)
    (hadvance : ∀ now v, I v → I (v.advance now).2) (hF : ¬LawfulStore.Faulty σ) :
    ∀ {ops : List Operation}, (∀ op ∈ ops, op.HasSources) → ∀ {r : Runner κ σ}, I r.seen →
      ∀ a ∈ r.answers ops, Flawless a
  | [], _, _, _ => fun _ ha => absurd ha List.not_mem_nil
  | op :: ops, hops, r, hr => by
    obtain ⟨hop, hops⟩ := List.forall_mem_cons.1 hops
    obtain ⟨a, r', h, ha, hr'⟩ :=
      (hI.perform_flawless hfire hadvance hF hop).returns (fun _ _ h => h) hr
    show ∀ a ∈ (r.step op).1 :: (r.step op).2.answers ops, Flawless a
    rw [step_of_ok h]
    exact List.forall_mem_cons.2 ⟨ha, answers_flawless hI hfire hadvance hF hops hr'⟩

end Invariant

omit [CustomTrigger κ] in
theorem orderly_start (t : Trigger κ) (cfg : RunnerConfig) {store : σ}
    (hstore : LawfulStore.contents store = .empty) : Orderly t (start t cfg store).seen := by
  cases t with
  | once t => rfl
  | earlyAndLate c => exact phased_start cfg hstore

/-- If the custom triggers never fail and write their own counters only, no operation of a run from
an empty store that never fails is answered with an error. The look-ups that its evaluations make
find every child of the trigger, and fail only at the indices where the trigger has none. -/
theorem run_without_errors (hown : t.Customs OwnCounter) (hret : t.Customs NeverFails)
    (hF : ¬LawfulStore.Faulty σ) (cfg : RunnerConfig) {store : σ}
    (hstore : LawfulStore.contents store = .empty) {ops : List Operation}
    (hops : ∀ op ∈ ops, op.HasSources) :
    (∀ x ∈ (start t cfg store).answers ops, Flawless x) ∧
      ∀ i, ((start t cfg store).run ops).root.leaf? i = match t.children[i]? with
        | some o => .ok ⟨.child .root i, o⟩
        | none => .error (.noSuchSubTrigger .root i) := by
  have ht : t.Customs (Modest False) := Trigger.Customs.and (fun _ ho hr => ⟨ho, .inr hr⟩) hown hret
  refine ⟨(orderly_invariant ht).answers_flawless (orderly_firing ht) (fun now v h => h.advance now)
    hF hops (orderly_start t cfg hstore), fun i => ?_⟩
  rw [run_root]
  exact Node.leaf?_eq (.root t) i

/-- The end of the first window retires its only child, and then more elements come for it, before
and after it is merged into a window that has not ended. -/
theorem run_without_errors_past_the_end :
    let c : EarlyAndLate ScriptedTrigger := ⟨.custom { threshold := .clamp 2 }, none⟩
    let a : Window := ⟨.clamp 0, .clamp 10⟩
    let b : Window := ⟨.clamp 5, .clamp 15⟩
    let ops : List Operation := [.element [a, b] (.clamp 6), .tick (.clamp 12),
      .element [a] (.clamp 4), .merge [a, b] (a.span b), .element [a.span b] (.clamp 7),
      .fire (a.span b), .tick (.clamp 20), .element [a.span b, b] (.clamp 8), .collect]
    let r := start (.earlyAndLate c) { supportsMerging := true } MemoryStore.empty
    (∀ x ∈ r.answers ops, Flawless x) ∧
      (LawfulStore.contents (r.run (ops.take 2)).store a).finished .early = true ∧
      (r.run ops).root.leaf? 0 = .ok ⟨.early, c.early⟩ ∧
      (r.run ops).root.leaf? 1 = .error (.noSuchSubTrigger .root 1) := by
  intro c a b ops r
  have hown : (Trigger.earlyAndLate c).Customs OwnCounter := ⟨ScriptedTrigger.ownCounter rfl, nofun⟩
  have hret : (Trigger.earlyAndLate c).Customs NeverFails := ⟨ScriptedTrigger.neverFails rfl, nofun⟩
  have hstore : LawfulStore.contents MemoryStore.empty = .empty :=
    funext fun _ => MemoryStore.state_empty
  have hops : ∀ op ∈ ops, op.HasSources := by simp [ops, Operation.HasSources]
  have h := run_without_errors hown hret id { supportsMerging := true } hstore hops
  exact ⟨h.1, by decide +kernel, h.2 0, h.2 1⟩

end Runner

end PaneTriggers
