import PaneTriggers.Proofs.Phases

/-!
# Trees that fire at the end of the window

A punctual tree is the end of the window itself, or a composite whose custom children cannot fail.
It has one node that is done from the firing at the end of the window on (`Trigger.endNode`). In a
runner over such a tree that node is done only after the end (`Sound.ended`), a closed window has
it done (`Sound.endFired_of_closed`), and a window that is past its end and does not have it done
is ready (`Trigger.Punctual.ready`), and a firing then marks it (`Trigger.Punctual.firing`).
-/

namespace PaneTriggers

variable {κ : Type}

/-- The node that is done from the firing at the end of the window on. -/
def Trigger.endNode : Trigger κ → Position
  | .once _ => .root
  | .earlyAndLate _ => .early

/-- The tree fires at the end of the window, and its custom triggers keep to their counters and
never fail. -/
inductive Trigger.Punctual [CustomTrigger κ] : Trigger κ → Prop where
  | leaf : Punctual (.once .endOfWindow)
  | composite {c : EarlyAndLate κ} : c.Customs OwnCounter → c.Customs NeverFails →
      Punctual (.earlyAndLate c)

namespace Runner

variable {t : Trigger κ} {v : Seen κ} {w : Window}

/-- The end of the window has been fired. -/
def endFired (v : Seen κ) (w : Window) : Bool := (v.store w).finished v.root.trigger.endNode

/-- The runner has the tree as its root, and no window shows an end that has not come. -/
def Sound : Trigger κ → Seen κ → Prop
  | .earlyAndLate c, v => Phased c v
  | .once t, v => v.root = .root (.once t) ∧
    ∀ w, (v.store w).finished .root = true → w.endedBy v.watermark = true

theorem Sound.root_eq (h : Sound t v) : v.root = .root t := by
  cases t with
  | once t => exact h.1
  | earlyAndLate c => exact h.1

theorem Sound.endFired_eq (h : Sound t v) : v.endFired w = (v.store w).finished t.endNode := by
  unfold endFired
  rw [h.root_eq]
  rfl

theorem Sound.ended (h : Sound t v) (hf : v.endFired w = true) : w.endedBy v.watermark = true := by
  rw [h.endFired_eq] at hf
  cases t with
  | once t => exact h.2 w hf
  | earlyAndLate c => exact (h.2 w).ended hf

theorem Sound.endFired_of_closed (h : Sound t v) (hc : v.closedIn (v.store w) = true) :
    v.endFired w = true := by
  rw [h.endFired_eq]
  rw [closedIn_root h.root_eq] at hc
  cases t with
  | once t => exact hc
  | earlyAndLate c =>
    have hphase : c.Phase (w.endedBy v.watermark) (v.store w) := h.2 w
    rcases hl : c.late with _ | l
    · rw [← hc]
      exact (hphase.alone hl).symm
    · have hu := (hphase.unfinished (by simp [hl])).1
      rw [hc] at hu
      cases hu

theorem Sound.advance (h : Sound t v) (now : Timestamp) : Sound t (v.advance now).2 := by
  cases t with
  | earlyAndLate c => exact Phased.advance h now
  | once t =>
    refine ⟨(v.advance_root now).trans h.1, fun w hw => endedBy_advance (h.2 w ?_)⟩
    rwa [advance_store] at hw

theorem Sound.put_leaf {v' : Seen κ} {s : WindowState} (h : Sound (.once .endOfWindow) v)
    (hs : s.finished .root = true → w.endedBy v.watermark = true) (hroot : v'.root = v.root)
    (hw : v'.watermark = v.watermark) (hstore : v'.store = v.store.put w s) :
    Sound (.once .endOfWindow) v' := by
  refine ⟨hroot.trans h.1, ?_⟩
  rw [hw, hstore]
  exact Contents.forall_put (P := fun u s => s.finished .root = true →
    u.endedBy v.watermark = true) hs h.2

section Punctual

variable [CustomTrigger κ]

theorem leaf_invariant : Invariant False (Sound (.once (.endOfWindow : OnceTrigger κ))) where
  drop _ _ _ h := h
  element v ws t w h _ := by
    rw [h.1]
    refine (Leaf.onElement_ensures (A := fun _ w w' => w' = w) (l := ⟨.root, .endOfWindow⟩)
      (fun _ _ => rfl) (v.scope_open w) t ws trivial).mono (fun p hp => by rw [hp])
      (fun _ p hp => ?_) fun _ _ hf => hf
    exact h.put_leaf (fun hr => h.2 w (by rwa [hp] at hr)) rfl rfl rfl
  ready v w h e he := by
    unfold readiness at he
    rw [h.1] at he
    split_ifs at he
    cases he
  merge v ws d h _ := by
    rw [h.1]
    refine (Leaf.onMerge_ensures (A := fun _ w w' => w' = w) (l := ⟨.root, .endOfWindow⟩)
      (fun _ _ => rfl) trivial).mono (fun p hp => by rw [hp]) (fun _ p hp => ?_) fun _ _ hf => hf
    have hp : p.state = WindowState.empty.setFinished .root
      (finishedInAll (v.sources ws) .root && d.endedBy v.watermark) := hp
    refine ⟨merged_root.trans h.1, fun u hu => ?_⟩
    rw [merged_store] at hu
    rw [merged_watermark]
    unfold Contents.commit at hu
    split_ifs at hu with hd
    · rw [hd]
      unfold mergedState closeMerged at hu
      rw [hp] at hu
      split_ifs at hu with hc
      · simp only [Bool.and_eq_true] at hc
        exact hc.1.1
      · simp only [WindowState.finished_setFinished, if_true, Bool.and_eq_true] at hu
        exact hu.2
    · simp at hu
    · exact h.2 u hu
  collect _ _ h _ := h.put_leaf (by simp) rfl rfl rfl
  interrupted _ _ _ hf := hf.elim
  halfMerged _ _ _ _ _ hf := hf.elim

/-- A window that is past its lateness, counted from its end, is past its end. -/
theorem endedBy_of_expired (hg : v.guarantee w = w.maxTimestamp) (he : v.expired w = true) :
    w.endedBy v.watermark = true := by
  obtain ⟨now, hn, hlate⟩ := expired_iff.1 he
  rw [hg, Timestamp.shift_lt_iff] at hlate
  exact endedBy_iff.2 ⟨now, hn, Timestamp.lt_iff.2 (by omega)⟩

/-- A window that is past the lateness it allows is past its end. -/
theorem ended_of_expired (ht : t.Punctual) (hroot : v.root = .root t) (he : v.expired w = true) :
    w.endedBy v.watermark = true := by
  refine endedBy_of_expired ?_ he
  unfold guarantee
  rw [hroot]
  cases ht <;> rfl

end Punctual

end Runner

namespace Trigger.Punctual

open Runner

variable [CustomTrigger κ] {t : Trigger κ} {v : Seen κ} {w : Window}

/-- A window that is past its end is ready until the end is fired. -/
theorem ready (ht : t.Punctual) (h : Sound t v) (he : w.endedBy v.watermark = true)
    (hf : v.endFired w = false) : v.readiness w ≠ .ok false := by
  have hopen : ¬v.closedIn (v.store w) = true := fun hc => by
    rw [h.endFired_of_closed hc] at hf
    cases hf
  rw [h.endFired_eq] at hf
  unfold readiness
  rw [if_neg hopen, h.root_eq]
  cases ht with
  | leaf =>
    intro hr
    have hr : Except.ok (w.endedBy v.watermark) = (.ok false : Except TriggerError Bool) := hr
    rw [he] at hr
    cases hr
  | composite hown hnf =>
    intro hr
    cases EarlyAndLate.ready_of_ended (s := v.scope w) hf he hr

theorem taking (ht : t.Punctual) (h : Sound t v) (hn : v.dropReason? w = none) {ws : List Window}
    {at' : Timestamp} : Ensures (fun p => p = { state := v.store w })
      (v.root.onElement (v.scope w) at' ws)
      (fun _ p => p.state.finished t.endNode = v.endFired w) fun _ _ => False := by
  rw [h.endFired_eq, h.root_eq]
  cases ht with
  | leaf =>
    exact (Leaf.onElement_ensures (A := fun _ w w' => w' = w) (l := ⟨.root, .endOfWindow⟩)
      (fun _ _ => rfl) (v.scope_open w) at' ws trivial).mono
      (fun p hp => by rw [hp]) (fun _ p hp => by rw [hp]) fun _ _ hf => hf
  | @composite c hown hnf =>
    have hm : c.Customs (Modest False) := hown.and (fun k ho hn => ⟨ho, .inr hn⟩) hnf
    refine (EarlyAndLate.onElement_ensures (fun _ _ _ => CounterAt.refl _) (v.scope_open w)
      (fun l hl => (hm.leaves l hl).mono fun k hk => hk.onElement (v.scope_open w) at' ws)
      (.inr (Phased.hasOpenChild h hn))).mono
      (fun p hp => by rw [hp]) (fun _ p hp => ?_) fun _ _ hf => hf
    exact hp.sameFinished _

/-- A firing of a window that is ready marks the end if it has come. -/
theorem firing (ht : t.Punctual) (h : Sound t v) (hr : v.readiness w = .ok true) :
    Ensures (fun p => p = { state := v.store w }) (v.root.onFire (v.scope w))
      (fun _ p => Sound t (v.fired w p) ∧
        p.state.finished t.endNode = (v.endFired w || w.endedBy v.watermark)) fun _ _ => False := by
  cases ht with
  | leaf =>
    have he : w.endedBy v.watermark = true := by
      unfold readiness at hr
      by_cases hc : v.closedIn (v.store w) = true
      · rw [if_pos hc] at hr
        cases hr
      · rw [if_neg hc, h.root_eq] at hr
        have hr : Except.ok (w.endedBy v.watermark) = (.ok true : Except TriggerError Bool) := hr
        injection hr
    rw [h.root_eq]
    refine (Leaf.onFire_ensures (A := fun _ w w' => w' = w) (s := v.scope w)
      (l := ⟨.root, .endOfWindow⟩) (fun _ _ => rfl) trivial).mono (fun p hp => by rw [hp]) ?_
      fun _ _ hf => hf
    intro _ p hx
    obtain ⟨_, rfl, hp⟩ := hx
    have hroot : p.state.finished .root = true := by
      rw [hp]
      simp [WindowState.finished_setFinished]
    refine ⟨h.put_leaf (fun _ => he) fired_root fired_watermark fired_store, ?_⟩
    rw [he, Bool.or_true]
    exact hroot
  | @composite c hown hnf =>
    have hm : c.Customs (Modest False) := hown.and (fun k ho hn => ⟨ho, .inr hn⟩) hnf
    have hbit : Ensures (fun p => p = { state := v.store w }) (v.root.onFire (v.scope w))
        (fun _ p => p.state.finished .early = (v.endFired w || w.endedBy v.watermark))
        fun _ _ => False := by
      rw [h.endFired_eq, h.root_eq]
      refine (EarlyAndLate.onFire_ensures CounterAt.refl (fun _ _ _ => CounterAt.sameFinished)
        (fun l hl => (hm.leaves l hl).mono fun k hk => hk.onOnlyFiring (v.scope_open w))
        fun l hl => (hm.leaves l hl).mono fun k hk _ _ => hk.shouldFire (v.scope_open w)).mono
        (fun p hp => by rw [hp]) ?_ fun _ _ hf => hf
      intro _ p hx
      obtain ⟨w₁, h₁, hp⟩ := hx
      rw [hp, EarlyAndLate.finished_early_fired, h₁.sameFinished]
      rfl
    exact ((phased_firing hm v w h).and hbit).onFail fun _ _ h => h.1

/-- That no end shows before it has come is an invariant. -/
theorem invariant (ht : t.Punctual) : Invariant False (Sound t) := by
  cases ht with
  | leaf => exact leaf_invariant
  | composite hown hnf => exact phased_invariant (hown.and (fun k ho hn => ⟨ho, .inr hn⟩) hnf)

end Trigger.Punctual

end PaneTriggers
