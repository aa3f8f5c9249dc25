import Mathlib.Data.List.Perm.Basic
import PaneTriggers.Proofs.TreeEffects

/-!
# What a merge makes of its sources

Where the custom triggers sum up the counters of the sources, a merge leaves one state, which
`Trigger.settled` gives node by node. It asks of the sources only whether a node is done in all of
them and what their counters sum to. So it does not depend on their order (`Settles.perm`), and a
group of them may be merged first, into a window that ends no later (`Settles.regroup`).
-/

namespace PaneTriggers

namespace Counter

variable {a b c : Counter} {cs cs' : List Counter}

theorem toNat_add : (a.add b).toNat = min (a.toNat + b.toNat) 18446744073709551615 := by
  unfold add
  rw [toNat_clamp]
  split_ifs <;> omega

theorem add_comm : a.add b = b.add a := by
  unfold add
  rw [Nat.add_comm]

theorem add_assoc : (a.add b).add c = a.add (b.add c) := by
  have := a.le_greatest
  have := c.le_greatest
  apply Counter.ext
  simp only [toNat_add]
  omega

theorem zero_add : (0 : Counter).add a = a := by
  have := a.le_greatest
  apply Counter.ext
  rw [toNat_add, toNat_zero]
  omega

instance : Std.Commutative add := ⟨fun _ _ => add_comm⟩

instance : Std.Associative add := ⟨fun _ _ _ => add_assoc⟩

theorem sum_perm (h : cs.Perm cs') : sum cs = sum cs' := h.foldl_op_eq

/-- Some of the counters may be summed first. -/
theorem sum_sum_cons : sum (sum cs :: cs') = sum (cs ++ cs') := by
  unfold sum
  rw [List.foldl_cons, List.foldl_append, zero_add]

end Counter

variable {ended ended' : Bool} {ms ms' : List MergeSource} {s s' : WindowState} {d : Window}
  {p q : Position}

theorem finishedInAll_perm (h : ms.Perm ms') : finishedInAll ms p = finishedInAll ms' p :=
  h.all_eq

theorem counterOfAll_perm (h : ms.Perm ms') : counterOfAll ms p = counterOfAll ms' p :=
  Counter.sum_perm (h.map _)

/-- What is done in a window that ends no later stands for what was done in all its sources. -/
theorem finishedInAll_regroup (hs : s.finished p = (finishedInAll ms p && ended))
    (he : ended' = true → ended = true) :
    (finishedInAll (⟨d, s⟩ :: ms') p && ended') = (finishedInAll (ms ++ ms') p && ended') := by
  unfold finishedInAll at hs ⊢
  rw [List.all_cons, List.all_append, hs]
  cases ended'
  · simp
  · simp [he rfl]

theorem counterOfAll_regroup (hs : s.counter p = counterOfAll ms p) :
    counterOfAll (⟨d, s⟩ :: ms') p = counterOfAll (ms ++ ms') p := by
  unfold counterOfAll at hs ⊢
  rw [List.map_cons, List.map_append, hs, Counter.sum_sum_cons]

variable {κ : Type}

namespace OnceTrigger

/-- What a merge makes of a node at `p` without children. -/
def joined (t : OnceTrigger κ) (p : Position) (ended : Bool) (ms : List MergeSource) : NodeState :=
  match t with
  | endOfWindow => { finished := finishedInAll ms p && ended }
  | never => {}
  | custom _ => { counter := counterOfAll ms p }

variable {t : OnceTrigger κ}

theorem joined_perm (h : ms.Perm ms') : t.joined p ended ms = t.joined p ended ms' := by
  cases t with
  | endOfWindow => rw [joined, joined, finishedInAll_perm h]
  | never => rfl
  | custom k => rw [joined, joined, counterOfAll_perm h]

theorem joined_regroup (hf : t = endOfWindow → s.finished p = (finishedInAll ms p && ended))
    (hc : ∀ k, t = custom k → s.counter p = counterOfAll ms p) (he : ended' = true → ended = true) :
    t.joined p ended' (⟨d, s⟩ :: ms') = t.joined p ended' (ms ++ ms') := by
  cases t with
  | endOfWindow => rw [joined, joined, finishedInAll_regroup (hf rfl) he]
  | never => rfl
  | custom k => rw [joined, joined, counterOfAll_regroup (hc k rfl)]

end OnceTrigger

namespace EarlyAndLate

/-- What a composite that takes a merge makes of the node at `q`: the node of its late child counts
only while it stays in its late phase. -/
def joined (c : EarlyAndLate κ) (ended : Bool) (ms : List MergeSource) (q : Position) : NodeState :=
  if finishedInAll ms .early && ended then
    if q = .early then { finished := true }
    else if q = .late then c.late.elim {} fun t => t.joined .late ended ms
    else {}
  else {}

variable {c : EarlyAndLate κ}

theorem joined_perm (h : ms.Perm ms') : c.joined ended ms q = c.joined ended ms' q := by
  unfold joined
  simp only [finishedInAll_perm h, OnceTrigger.joined_perm h]

theorem finished_joined_early :
    (c.joined ended ms .early).finished = (finishedInAll ms .early && ended) := by
  cases hf : finishedInAll ms .early && ended <;> simp [joined, hf]

theorem joined_regroup (hearly : s.node .early = c.joined ended ms .early)
    (hlate : s.node .late = c.joined ended ms .late) (he : ended' = true → ended = true) :
    c.joined ended' (⟨d, s⟩ :: ms') q = c.joined ended' (ms ++ ms') q := by
  have hf : s.finished .early = (finishedInAll ms .early && ended) := by
    rw [WindowState.finished, hearly, finished_joined_early]
  unfold joined
  rw [finishedInAll_regroup hf he]
  refine if_ctx_congr Iff.rfl (fun hphase => ?_) fun _ => rfl
  -- In the late phase the group was in it too, and its late child tells how far.
  refine if_congr Iff.rfl rfl (if_congr Iff.rfl ?_ rfl)
  have hgroup : (finishedInAll ms .early && ended) = true := by
    unfold finishedInAll at hphase ⊢
    rw [List.all_append] at hphase
    simp only [Bool.and_eq_true] at hphase ⊢
    exact ⟨hphase.1.1, he hphase.2⟩
  rcases hc : c.late with _ | l
  · rfl
  have hl : s.node .late = l.joined .late ended ms := by
    rw [hlate, joined, if_pos hgroup, if_neg (by decide), if_pos rfl, hc]
    rfl
  refine OnceTrigger.joined_regroup ?_ ?_ he
  · rintro rfl
    rw [WindowState.finished, hl]
    rfl
  · rintro k rfl
    rw [WindowState.counter, hl]
    rfl

end EarlyAndLate

namespace Trigger

/-- What a tree that takes a merge makes of the node at `q`. -/
def joined (t : Trigger κ) (ended : Bool) (ms : List MergeSource) (q : Position) : NodeState :=
  match t with
  | once t => if q = .root then t.joined .root ended ms else {}
  | earlyAndLate c => c.joined ended ms q

/-- What a merge makes of the node at `q`: the root is also done where the merge closes it. -/
def settled (t : Trigger κ) (ended : Bool) (ms : List MergeSource) (q : Position) : NodeState :=
  if q = .root ∧ (finishedInAll ms .root && ended) = true then
    { t.joined ended ms q with finished := true }
  else t.joined ended ms q

/-- A merge of the sources leaves `s`. -/
def Settles (t : Trigger κ) (ended : Bool) (ms : List MergeSource) (s : WindowState) : Prop :=
  ∀ q, s.node q = t.settled ended ms q

variable {t : Trigger κ}

theorem Settles.unique (h : t.Settles ended ms s) (h' : t.Settles ended ms s') : s = s' :=
  WindowState.ext_node fun q => (h q).trans (h' q).symm

theorem Settles.node_of_ne_root (h : t.Settles ended ms s) (hq : q ≠ .root) :
    s.node q = t.joined ended ms q :=
  (h q).trans (if_neg fun hroot => hq hroot.1)

theorem Settles.finished_root (h : t.Settles ended ms s) :
    s.finished .root = (finishedInAll ms .root && ended) := by
  unfold WindowState.finished
  rw [h]
  rcases t with (_ | _ | k) | c <;> cases hf : finishedInAll ms .root && ended <;>
    simp [settled, joined, OnceTrigger.joined, EarlyAndLate.joined, hf]

theorem Settles.counter_root (h : t.Settles ended ms s) :
    s.counter .root = (t.joined ended ms .root).counter := by
  unfold WindowState.counter
  rw [h, settled]
  split_ifs <;> rfl

theorem joined_perm (h : ms.Perm ms') : t.joined ended ms q = t.joined ended ms' q := by
  cases t with
  | once t => exact if_congr Iff.rfl (OnceTrigger.joined_perm h) rfl
  | earlyAndLate c => exact EarlyAndLate.joined_perm h

theorem joined_regroup (hs : t.Settles ended ms s) (he : ended' = true → ended = true) :
    t.joined ended' (⟨d, s⟩ :: ms') q = t.joined ended' (ms ++ ms') q := by
  cases t with
  | once t =>
    refine if_congr Iff.rfl (OnceTrigger.joined_regroup (fun _ => hs.finished_root) ?_ he) rfl
    rintro k rfl
    exact hs.counter_root
  | earlyAndLate c =>
    exact EarlyAndLate.joined_regroup (hs.node_of_ne_root (by decide))
      (hs.node_of_ne_root (by decide)) he

/-- The order of the sources does not matter. -/
theorem Settles.perm (hs : t.Settles ended ms s) (h : ms.Perm ms') : t.Settles ended ms' s := by
  intro q
  rw [hs q, settled, settled, joined_perm h, finishedInAll_perm h]

/-- A group of sources may be merged first, into a window that ends no later. -/
theorem Settles.regroup (hs : t.Settles ended ms s) (he : ended' = true → ended = true)
    (h : t.Settles ended' (⟨d, s⟩ :: ms') s') : t.Settles ended' (ms ++ ms') s' := by
  intro q
  rw [h q, settled, settled, joined_regroup hs he, finishedInAll_regroup hs.finished_root he]

end Trigger

/-! ## Taking a merge -/

section Evaluation

variable [CustomTrigger κ] {s : Scope}

/-- A leaf whose node is at its default leaves there what it makes of the sources. -/
theorem Leaf.onMerge_joined {t : OnceTrigger κ} (ht : t.IfCustom SumsOnMerge) {w : WindowState}
    (hw : w.node p = {}) :
    Ensures (fun a => a.state = w ∧ a.timers = []) (Leaf.onMerge ⟨p, t⟩ s ms)
      (fun _ a => (∀ q, a.state.node q = if q = p then t.joined p s.ended ms else w.node q) ∧
        a.timers = []) fun _ _ => False := by
  cases t with
  | endOfWindow =>
    refine .modify fun a ha => ⟨fun q => ?_, ha.2⟩
    rw [ha.1, WindowState.node_setFinished, hw]
    exact if_congr eq_comm rfl rfl
  | never =>
    refine .pure fun a ha => ⟨fun q => ?_, ha.2⟩
    rw [ha.1]
    split_ifs with hq
    · rw [hq, hw]
      rfl
    · rfl
  | custom k =>
    refine .bind (.get fun _ ha => ha) fun _ =>
      .bind (Q := fun _ a => a.state = w ∧ a.timers = []) (.modify fun _ ha => ha) fun _ => ?_
    rintro a ⟨rfl, hts⟩
    unfold Eval.hook
    rw [ht]
    refine ⟨fun q => ?_, by rw [hts]; rfl⟩
    show (a.state.setCounter p (counterOfAll ms p)).node q = _
    rw [WindowState.node_setCounter, hw]
    exact if_congr eq_comm rfl rfl

theorem EarlyAndLate.onMerge_joined {c : EarlyAndLate κ} (hc : c.Customs SumsOnMerge) :
    Ensures (fun a => a.state = .empty ∧ a.timers = [])
      ((Node.root (.earlyAndLate c)).onMerge s ms)
      (fun _ a => (∀ q, a.state.node q = c.joined s.ended ms q) ∧ a.timers = [])
      fun _ _ => False := by
  have mark : ∀ b, Ensures (fun a : Progress κ => a.state = .empty ∧ a.timers = [])
      ((c.earlyAt .root).setFinished b)
      (fun _ a => a.state = WindowState.empty.setFinished .early b ∧ a.timers = [])
      fun _ _ => False := fun b =>
    .modify fun a ha => ⟨congrArg (WindowState.setFinished · .early b) ha.1, ha.2⟩
  rw [Node.root, Node.onMerge_earlyAndLate]
  refine .ite (fun hphase => .bind (mark true) fun _ => ?_) fun hphase =>
    .bind (mark false) fun _ => ?_
  · have hphase : (finishedInAll ms .early && s.ended) = true := hphase
    have hmark : ∀ q, (WindowState.empty.setFinished .early true).node q =
        if q = .early then { finished := true } else {} := fun q => by
      rw [WindowState.node_setFinished, WindowState.node_empty]
      exact if_congr eq_comm rfl rfl
    rcases hl : c.late with _ | l
    · simp only [lateAt, hl, Option.map_none]
      refine .pure fun a ha => ⟨fun q => ?_, ha.2⟩
      rw [ha.1, hmark, joined, if_pos hphase, hl]
      exact if_congr Iff.rfl rfl (ite_self _).symm
    · simp only [lateAt, hl, Option.map_some]
      refine (Leaf.onMerge_joined (p := .late) (hc.late l hl) (hmark .late)).onReturn
        fun _ a ha => ⟨fun q => ?_, ha.2⟩
      rw [ha.1, hmark, joined, if_pos hphase, hl]
      by_cases hq : q = .late <;> simp [hq]
  · have hphase : ¬(finishedInAll ms .early && s.ended) = true := hphase
    have still : ∀ a : Progress κ, a.state = .empty ∧ a.timers = [] →
        (∀ q, a.state.node q = c.joined s.ended ms q) ∧ a.timers = [] := fun a ha =>
      ⟨fun q => by rw [ha.1, WindowState.node_empty, joined, if_neg hphase], ha.2⟩
    rw [WindowState.setFinished_empty]
    rcases hl : c.late with _ | l
    · simp only [lateAt, hl, Option.map_none]
      exact .pure still
    · simp only [lateAt, hl, Option.map_some]
      refine .bind (Q := fun _ a => a.state = .empty ∧ a.timers = [])
        (.modify fun a ha => ⟨?_, ha.2⟩) fun _ => .modify fun a ha => still _ ⟨?_, ha.2⟩
      · show a.state.setFinished _ false = _
        rw [ha.1, WindowState.setFinished_empty]
      · show a.state.clearSubtree _ = _
        rw [ha.1, WindowState.clearSubtree_empty]

/-- A tree of summing triggers takes a merge without failing and asks for no timers. -/
theorem Trigger.onMerge_joined {t : Trigger κ} (ht : t.Customs SumsOnMerge) :
    Ensures (fun a => a.state = .empty ∧ a.timers = []) ((Node.root t).onMerge s ms)
      (fun _ a => (∀ q, a.state.node q = t.joined s.ended ms q) ∧ a.timers = [])
      fun _ _ => False := by
  cases t with
  | once t =>
    refine (Leaf.onMerge_joined (p := .root) ht WindowState.node_empty).onReturn fun _ a ha =>
      ⟨fun q => ?_, ha.2⟩
    rw [ha.1, WindowState.node_empty]
    rfl
  | earlyAndLate c => exact EarlyAndLate.onMerge_joined ht

end Evaluation

end PaneTriggers
