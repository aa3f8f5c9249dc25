import PaneTriggers.Proofs.Courses
import PaneTriggers.Proofs.EndOfWindow
import PaneTriggers.Proofs.ScriptedConduct

/-!
# Closed windows

No firing undoes that the root is done (`Trigger.onFire_keeps_done`), and a window whose root is
done takes no elements and is not ready. So a window that has closed stays closed until it is
collected (`Runner.Occurs.keeps_closed`). A collected window has expired, takes no element and is
never active again, so it is collected once at most (`Runner.Occurs.keeps_gone`).

But a collection drops the state in which the window is closed, while the watermark stays past its
end: `Runner.closes_again` finds it ready for another firing that closes it.
-/

namespace PaneTriggers

variable {κ σ : Type} [CustomTrigger κ]

section Firing

open Eval

variable {s : Scope} {t : Trigger κ} {c : EarlyAndLate κ} {l : Leaf κ}

/-- Started with a root that is done, the evaluation leaves it so if it returns. -/
def Eval.KeepsDone {α : Type} (act : Eval κ α) : Prop :=
  Ensures (fun p => p.state.finished .root = true) act (fun _ p => p.state.finished .root = true)
    fun _ _ => True

omit [CustomTrigger κ] in
theorem Eval.keepsDone_of_each {α : Type} {act : Eval κ α}
    (h : ∀ w : WindowState, w.finished .root = true → Ensures (fun p => p.state = w) act
      (fun _ p => p.state.finished .root = true) fun _ _ => True) : act.KeepsDone :=
  .of_each (f := fun p : Progress κ => p.state) (G := fun w => w.finished .root = true) h

theorem EarlyAndLate.onFire_keeps_done (hc : c.Customs OwnNode) :
    ((Node.root (.earlyAndLate c)).onFire s).KeepsDone := by
  refine keepsDone_of_each fun w hw => (onFire_ownNode hc (.inl trivial)).onReturn ?_
  rintro _ p ⟨w₁, -, hsame, hp⟩
  rw [hp, finished_root_fired, hsame, hw, Bool.true_or]

/-- A firing does not undo that the root is done. -/
theorem Trigger.onFire_keeps_done (ht : t.Customs OwnNode) :
    ((Node.root t).onFire s).KeepsDone := by
  cases t with
  | once t =>
    -- The hook may write what it likes, since the mark comes after it.
    refine keepsDone_of_each fun w _ => (Leaf.onFire_ensures (A := fun _ _ _ => True)
      (l := ⟨.root, t⟩) (fun _ _ => trivial) (OnceTrigger.IfCustom.mono
        (fun k _ => .of_ok (fun _ _ _ => trivial) (.inl trivial)) ht)).onReturn ?_
    rintro _ p ⟨w₁, -, hp⟩
    rw [hp, WindowState.finished_setFinished, if_pos rfl]
  | earlyAndLate c => exact EarlyAndLate.onFire_keeps_done ht

end Firing

section End

variable {s : Scope} {t : Trigger κ}

/-- The firing at the end of the window is the last. -/
def Trigger.EndsWithWindow : Trigger κ → Prop
  | .once _ => True
  | .earlyAndLate c => c.late = none

/-- Past the end of the window, such a tree is ready in the empty state and closes when it fires. -/
theorem Trigger.Punctual.closes (ht : t.Punctual) (hlast : t.EndsWithWindow) (hs : s.Open)
    (hend : s.ended = true) : (Node.root t).ready s .empty = .ok true ∧
      ∃ p, (Node.root t).onFire s { state := .empty } = .ok () p ∧
        p.state.finished .root = true := by
  cases ht with
  | leaf =>
    have hdone : (WindowState.empty.setFinished .root true).finished .root = true := by
      rw [WindowState.finished_setFinished, if_pos rfl]
    exact ⟨congrArg Except.ok hend, _, rfl, hdone⟩
  | @composite c hown hret =>
    have hc : c.late = none := hlast
    have hm : c.Customs (Modest False) := hown.and (fun k ho hn => ⟨ho, .inr hn⟩) hret
    have hempty : WindowState.empty.finished .early = false := WindowState.finished_empty
    refine ⟨?_, ?_⟩
    · obtain ⟨b, hb⟩ := Leaf.ready_returns (l := c.earlyAt .root) (w := .empty) hret.early hs
      rw [EarlyAndLate.ready_of_early hempty, hb, hend]
      exact congrArg Except.ok (Bool.or_true b)
    · have hfire := EarlyAndLate.onFire_ensures (c := c) (F := False) (w := .empty) CounterAt.refl
        (fun _ _ _ => CounterAt.sameFinished)
        (fun l hl => (hm.leaves l hl).mono fun k hk => hk.onOnlyFiring (s := l.site s) hs)
        fun l hl => (hm.leaves l hl).mono fun k hk _ _ => hk.shouldFire (s := l.site s) hs
      have hstart : ({ state := .empty } : Progress κ).state = .empty := rfl
      obtain ⟨_, p, hp, w₁, h₁, hstate⟩ := hfire.returns (fun _ _ h => h) hstart
      refine ⟨p, hp, ?_⟩
      have hearly : w₁.finished .early = false := (h₁.sameFinished _).trans hempty
      simp [hstate, EarlyAndLate.fired, hearly, hend, hc, WindowState.finished_setFinished]

end End

namespace Runner

variable {t : Trigger κ} {v v' : Seen κ} {w : Window} {e : Event} {es : List Event}

/-- A window that is closed stays so until it is collected. -/
theorem Occurs.keeps_closed (ht : t.Customs OwnNode) (hroot : v.root = .root t) (h : Occurs v e v')
    (he : e ≠ .collected w) (hw : v.closedIn (v.store w) = true) :
    v'.closedIn (v'.store w) = true := by
  rw [h.closedIn_eq]
  by_cases hu : e.window? = some w
  · have done : ∀ {p : Progress κ}, v.firing w = .ok () p → v.closedIn p.state = true := by
      intro p hp
      unfold firing at hp
      unfold closedIn at hw ⊢
      rw [hroot] at hp hw ⊢
      exact (Trigger.onFire_keeps_done ht).of_ok hw hp
    cases h with
    | dropped => exact hw
    | taken hn =>
      obtain rfl := Option.some.inj hu
      rw [open_of_dropReason hn] at hw
      cases hw
    | stalled hi =>
      obtain ⟨ts, rfl⟩ := hi
      exact hw
    | fired _ hp =>
      obtain rfl := Option.some.inj hu
      rw [fired_store, Contents.put_same]
      exact done hp
    | forced hp =>
      obtain rfl := Option.some.inj hu
      rw [fired_store, Contents.put_same]
      exact done hp
    | advanced => cases hu
    | collected =>
      obtain rfl := Option.some.inj hu
      exact absurd rfl he
  · rw [h.store_eq hu]
    exact hw

/-- The window is past its lateness, and not active any more. -/
structure Gone (v : Seen κ) (w : Window) : Prop where
  expired : v.expired w = true
  inactive : w ∉ v.active

theorem Occurs.keeps_gone (h : Occurs v e v') (hw : v.Gone w) : v'.Gone w := by
  refine ⟨h.expired hw.expired, ?_⟩
  cases h with
  | @taken ws t u p hn =>
    have hu : u ≠ w := by
      rintro rfl
      unfold dropReason? at hn
      rw [if_pos hw.expired] at hn
      cases hn
    rw [show (v.accepted t u p).active = v.active.insert u from rfl, Std.ExtTreeSet.mem_insert,
      Std.LawfulEqOrd.compare_eq_iff_eq]
    exact not_or.2 ⟨hu, hw.inactive⟩
  | stalled hi =>
    obtain ⟨ts, rfl⟩ := hi
    exact hw.inactive
  | fired => rw [fired_active]; exact hw.inactive
  | forced => rw [fired_active]; exact hw.inactive
  | advanced t => rw [advance_active]; exact hw.inactive
  | dropped => exact hw.inactive
  | collected => exact fun h => hw.inactive (mem_collected_active.1 h).1

theorem Occurs.gone (h : Occurs v (.collected w) v') : v'.Gone w := by
  cases h with
  | collected ha he hr =>
    exact ⟨(Occurs.collected ha he hr).expired he, fun h => (mem_collected_active.1 h).2 rfl⟩

theorem Course.not_collected (h : Course v es v') (hw : v.Gone w) : .collected w ∉ es := by
  induction h with
  | nil => exact List.not_mem_nil
  | cons he _ ih =>
    intro hm
    rcases List.mem_cons.1 hm with rfl | hm
    · cases he with
      | collected ha => exact hw.inactive ha
    · exact ih (he.keeps_gone hw) hm

/-- A window is collected at most once. -/
theorem Course.collections_le (h : Course v es v') : es.count (.collected w) ≤ 1 := by
  induction h with
  | nil => exact Nat.zero_le 1
  | @cons v e u es v' he hes ih =>
    by_cases hw : e = .collected w
    · subst hw
      have hnone : es.count (.collected w) = 0 := List.count_eq_zero.2 (hes.not_collected he.gone)
      rw [List.count_cons_self]
      omega
    · rwa [List.count_cons_of_ne hw]

theorem Occurs.open_of_fired {c : Bool} (h : Occurs v (.fired w c) v') :
    v.closedIn (v.store w) = false := by
  cases h with
  | fired hr => exact (readiness_true_iff.1 hr).1

theorem Occurs.closed_of_fired (h : Occurs v (.fired w true) v') :
    v'.closedIn (v'.store w) = true := by
  rw [h.closedIn_eq]
  generalize he : Event.fired w true = e at h
  cases h with
  | fired =>
    injection he with hw hc
    subst hw
    rw [fired_store, Contents.put_same, hc]
  | dropped | taken | stalled | forced | advanced | collected => cases he

/-- A closed window is fired again only once it has been collected. -/
theorem Course.collected_between (ht : t.Customs OwnNode) {c : Bool} {es' : List Event}
    (hroot : v.root = .root t)
    (h : Course v (.fired w true :: (es ++ .fired w c :: es')) v') : .collected w ∈ es := by
  by_contra hm
  cases h with
  | cons hfirst hrest =>
    obtain ⟨u', hes, hlast⟩ := hrest.split
    have hclosed := (hes.keeps
      (J := fun v => v.root = .root t ∧ v.closedIn (v.store w) = true)
      (fun he ho hv => ⟨ho.root_eq.trans hv.1,
        ho.keeps_closed ht hv.1 (fun heq => hm (heq ▸ he)) hv.2⟩)
      ⟨hfirst.root_eq.trans hroot, hfirst.closed_of_fired⟩).2
    cases hlast with
    | cons hsecond =>
      rw [hsecond.open_of_fired] at hclosed
      cases hclosed

/-- Of the events that close a window, all but one come after a collection of it; and so does that
one, if the window is closed at the start. -/
theorem Course.closings_le (ht : t.Customs OwnNode) (h : Course v es v')
    (hroot : v.root = .root t) : es.count (.fired w true) + (v.closedIn (v.store w)).toNat ≤
      es.count (.collected w) + 1 := by
  induction h with
  | nil v =>
    have := Bool.toNat_le (v.closedIn (v.store w))
    simpa using this
  | @cons v e u es v' he _ ih =>
    have ih := ih (he.root_eq.trans hroot)
    by_cases hf : e = .fired w true
    · subst hf
      rw [he.closed_of_fired] at ih
      rw [he.open_of_fired, List.count_cons_self, List.count_cons_of_ne (by simp)]
      exact ih
    rw [List.count_cons_of_ne hf]
    by_cases hc : e = .collected w
    · subst hc
      have := Bool.toNat_le (v.closedIn (v.store w))
      rw [List.count_cons_self]
      omega
    · rw [List.count_cons_of_ne hc]
      cases hw : v.closedIn (v.store w) with
      | false => exact Nat.le_trans (Nat.add_le_add_left (Nat.zero_le _) _) ih
      | true => rwa [he.keeps_closed ht hroot hc hw] at ih

section Runs

variable [StateStore σ] [LawfulStore σ]

/-- A window that has closed is fired again only once it has been collected, which happens at most
once. So it closes at most once, and once more if it is collected. -/
theorem closed_until_collected (hown : t.Customs OwnCounter) (hret : t.Customs NeverFails)
    (hF : ¬LawfulStore.Faulty σ) (cfg : RunnerConfig) (store : σ) {ops : List Operation}
    (hops : ∀ op ∈ ops, op.Plain) (w : Window) :
    let h := (start t cfg store).history ops
    h.count (.fired w true) ≤ h.count (.collected w) + 1 ∧ h.count (.collected w) ≤ 1 ∧
      ∀ h₁ h₂ h₃ c, h = h₁ ++ .fired w true :: (h₂ ++ .fired w c :: h₃) → .collected w ∈ h₂ := by
  intro h
  have ht : t.Customs OwnNode := hown.mono fun k hk => hk.ownNode
  have hdecides : ¬(start t cfg store).seen.Undecided := not_undecided hret rfl
  obtain ⟨told, ⟨es, hes, rfl⟩, hcause⟩ := run_leads hops (start t cfg store)
  have htold : es.filter Event.isTold = h := hcause.resolve_right fun h => h.elim hF hdecides
  have hcount : ∀ e : Event, e.isTold = true → h.count e = es.count e := fun e he => by
    rw [← htold, List.count_filter he]
  refine ⟨?_, ?_, ?_⟩
  · rw [hcount _ rfl, hcount _ rfl]
    exact Nat.le_trans (Nat.le_add_right _ _) (hes.closings_le ht rfl)
  · rw [hcount _ rfl]
    exact hes.collections_le
  · intro h₁ h₂ h₃ c heq
    rw [heq] at htold
    obtain ⟨es₁, rest, rfl, -, hrest⟩ := List.filter_eq_append_iff.1 htold
    obtain ⟨skip, rest', rfl, -, -, hrest⟩ := List.filter_eq_cons_iff.1 hrest
    obtain ⟨es₂, last, rfl, rfl, hlast⟩ := List.filter_eq_append_iff.1 hrest
    obtain ⟨skip', es₃, rfl, hskip, -, -⟩ := List.filter_eq_cons_iff.1 hlast
    obtain ⟨u, hfirst, hes⟩ := hes.split
    obtain ⟨u', hskipped, hes⟩ := hes.split
    rw [← List.append_assoc es₂] at hes
    have hm := hes.collected_between ht ((hfirst.append hskipped).root_eq.trans rfl)
    rcases List.mem_append.1 hm with hm | hm
    · exact List.mem_filter.2 ⟨hm, rfl⟩
    · exact absurd rfl (hskip _ hm)

/-- The window closes, takes no more elements, is collected, and closes again. -/
theorem closed_until_collected_scripted :
    let c : EarlyAndLate ScriptedTrigger := ⟨.custom { threshold := .clamp 2 }, none⟩
    let a : Window := ⟨.clamp 0, .clamp 10⟩
    let b : Window := ⟨.clamp 5, .clamp 30⟩
    let ops : List Operation := [.element [a, b] (.clamp 3), .element [a, b] (.clamp 6),
      .fireIfReady a, .advance (.clamp 12), .fireIfReady a, .fireIfReady a, .element [a, b] (.clamp 7),
      .fire b, .collect, .advance (.clamp 20), .collect, .element [a] (.clamp 8), .fireIfReady a,
      .collect, .fireIfReady a]
    let h := (start (.earlyAndLate c) { allowedLateness := 5 } MemoryStore.empty).history ops
    h = [.fired a false, .fired a true, .forced b, .collected a, .fired a true] ∧
      h.count (.fired a true) ≤ 2 := by
  intro c a b ops h
  have hown : (Trigger.earlyAndLate c).Customs OwnCounter :=
    ⟨ScriptedTrigger.ownCounter rfl, nofun⟩
  have hret : (Trigger.earlyAndLate c).Customs NeverFails :=
    ⟨ScriptedTrigger.neverFails rfl, nofun⟩
  have hops : ∀ op ∈ ops, op.Plain := by simp [ops, Operation.Plain]
  obtain ⟨hclosed, hcollected, -⟩ := closed_until_collected hown hret (fun hF => hF)
    { allowedLateness := 5 } MemoryStore.empty hops a
  exact ⟨by decide +kernel, Nat.le_trans hclosed (Nat.add_le_add_right hcollected 1)⟩

/-- The end of the window is fired, and fired again once the closed window has been collected. -/
theorem closed_window_fires_again :
    let t : Trigger ScriptedTrigger := .once .endOfWindow
    let a : Window := ⟨.clamp 0, .clamp 10⟩
    let ops : List Operation := [.element [a] (.clamp 3), .advance (.clamp 10), .fireIfReady a,
      .collect, .fireIfReady a]
    t.Customs OwnCounter ∧ t.Customs NeverFails ∧ (∀ op ∈ ops, op.Plain) ∧
      (start t {} MemoryStore.empty).history ops = [.fired a true, .collected a, .fired a true] := by
  intro t a ops
  have hops : ∀ op ∈ ops, op.Plain := by simp [ops, Operation.Plain]
  exact ⟨trivial, trivial, hops, by decide +kernel⟩

/-- What has been collected has no state. It had expired. -/
theorem garbageCollect_empties {r r' : Runner κ σ} {ws : List Window}
    (h : garbageCollect r = .ok ws r') (hw : w ∈ ws) : r.seen.expired w = true ∧
      r'.seen.store w = .empty ∧ r'.root = r.root ∧ r'.watermark = r.watermark := by
  obtain ⟨hws, hr'⟩ := garbageCollect_ensures.of_ok rfl h
  obtain ⟨q, a, l, hfold, -⟩ := foldl_collected ws r.seen
  rw [hfold] at hr'
  have hexpired : r.seen.expired w = true := by
    rw [hws] at hw
    exact (List.mem_filter.1 (List.mem_filter.1 hw).1).2
  have hstore : r'.seen.store w = .empty := by
    rw [hr']
    exact if_pos hw
  have hroot : r'.seen.root = r.seen.root := by rw [hr']
  have hnow : r'.seen.watermark = r.seen.watermark := by rw [hr']
  exact ⟨hexpired, hstore, hroot, hnow⟩

theorem step_fireIfReady (hF : ¬LawfulStore.Faulty σ) {r : Runner κ σ} {p : Progress κ}
    (hr : r.seen.readiness w = .ok true) (hp : r.seen.firing w = .ok () p) :
    (r.step (.fireIfReady w)).1 = .ok (.outcome (.fired (r.seen.closedIn p.state))) := by
  obtain ⟨o, r', hr', hcases⟩ := fireIfReady_returns (r := r) (w := w) hF
    (fun e he => by cases hr.symm.trans he) fun e p' hp' => by cases hp.symm.trans hp'
  rw [step_of_ok (bind_of_ok hr')]
  rcases hcases with ⟨hidle, -⟩ | ⟨-, p', hp', rfl, -⟩
  · cases hr.symm.trans hidle
  · cases hp.symm.trans hp'
    rfl

/-- Over a tree that closes with the end of the window, each window that is collected is ready
again, and fired it closes, also if it has closed before. -/
theorem closes_again (ht : t.Punctual) (hlast : t.EndsWithWindow) (hF : ¬LawfulStore.Faulty σ)
    {r : Runner κ σ} (hroot : r.root = .root t) {ws : List Window}
    (hws : (r.step .collect).1 = .ok (.windows ws)) (hw : w ∈ ws) :
    ((r.step .collect).2.step (.fireIfReady w)).1 = .ok (.outcome (.fired true)) := by
  cases hx : garbageCollect r with
  | error e r' =>
    have hs : r.step .collect = (.error e, r') := step_of_error (bind_of_error hx)
    rw [hs] at hws
    cases hws
  | ok us r' =>
    have hs : r.step .collect = (.ok (.windows us), r') := step_of_ok (bind_of_ok hx)
    rw [hs] at hws ⊢
    cases hws
    obtain ⟨hexpired, hempty, hsame, hnow⟩ := garbageCollect_empties hx hw
    have hroot' : r'.seen.root = .root t := hsame.trans hroot
    have hend : w.endedBy r'.watermark = true := by
      rw [hnow]
      exact ended_of_expired ht hroot hexpired
    obtain ⟨hready, p, hp, hdone⟩ := ht.closes hlast (r'.seen.scope_open w) hend
    rw [← hroot', ← hempty] at hready hp
    have hopen : r'.seen.closedIn (r'.seen.store w) = false := by
      rw [hempty]
      exact WindowState.finished_empty
    have hclosed : r'.seen.closedIn p.state = true := (closedIn_root hroot').trans hdone
    rw [← hclosed]
    exact step_fireIfReady hF (readiness_true_iff.2 ⟨hopen, hready⟩) hp

end Runs

end Runner

end PaneTriggers
