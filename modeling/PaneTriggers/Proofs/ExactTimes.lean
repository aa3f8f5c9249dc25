import PaneTriggers.Proofs.BarredWindows
import PaneTriggers.Proofs.StepFrames

/-!
# Decisions by exact times

Decisions compare the watermark with two event times that are computed, the last one of a window and
its guarantee with the allowed lateness. Both may stop at an end of the range, but as the comparisons
are strict, this does not show (`Timestamp.shift_lt_iff`, `Window.maxTimestamp_lt_iff`). Elements are
dropped and windows collected by the sum over the whole numbers (`Runner.Late`), and a window that
does not end at the least event time has ended when the watermark is at its end (`Runner.AtEnd`),
wherever the tree or the runner asks for it (`Runner.EndsAtStop`).
-/

namespace PaneTriggers

variable {κ σ : Type} {w : Window}

/-- The hook of a merge writes nothing but the node it is called for. -/
def MergesOwnNode [CustomTrigger κ] (k : κ) : Prop :=
  ∀ (s : Site) ms d d', CustomTrigger.onMerge k s ms d = .ok () d' →
    NodeAt s.position d.state d'.state

theorem ScriptedTrigger.mergesOwnNode (k : ScriptedTrigger) : MergesOwnNode k :=
  fun _ ms _ _ h => ((onMerge_ensures ms).of_ok rfl h).nodeAt

/-- A composite that takes a merge keeps its early child done exactly if it stays in its late phase.
-/
theorem EarlyAndLate.Reconciled.finished_early {c : EarlyAndLate κ} {ended : Bool}
    {ms : List MergeSource} {s s' : WindowState} (h : c.Reconciled NodeAt ended ms s s') :
    s'.finished .early = (finishedInAll ms .early && ended) := by
  cases h with
  | restarted hphase =>
    rw [hphase]
    unfold EarlyAndLate.restarted
    rcases c.late with _ | l <;>
      simp [WindowState.finished_setFinished, WindowState.finished_clearSubtree]
  | alone hphase _ => simp [hphase, WindowState.finished_setFinished]
  | lateEnd hphase _ => simp [hphase, WindowState.finished_setFinished]
  | late hphase _ _ hnode =>
    rw [WindowState.finished, hnode .early (by decide), hphase]
    simp [WindowState.node_setFinished]

namespace Runner

/-- Over the whole numbers, the watermark is past the guarantee of the window and the allowed
lateness. -/
def Late [CustomTrigger κ] (r : Runner κ σ) (w : Window) : Prop :=
  ∃ now, r.watermark = some now ∧ (r.guarantee w).millis + r.allowedLateness < now.millis

/-- The watermark has come to the end of the window. -/
def AtEnd (r : Runner κ σ) (w : Window) : Prop := ∃ now, r.watermark = some now ∧ w.stop ≤ now

variable {r r' : Runner κ σ}

/-- A window that does not end at the least event time has ended when the watermark is at its end.
-/
theorem endedBy_iff_atEnd (hw : .least < w.stop) : w.endedBy r.watermark = true ↔ r.AtEnd w := by
  rw [endedBy_iff]
  refine exists_congr fun now => and_congr_right fun _ => ?_
  rw [Window.maxTimestamp_lt_iff]
  exact and_iff_left_of_imp fun hle => Int.lt_of_lt_of_le hw hle

variable [CustomTrigger κ]

theorem expired_iff_late : r.expired w = true ↔ r.Late w := by
  rw [expired_iff]
  simp only [Timestamp.shift_lt_iff]
  rfl

/-- A window that is guaranteed to fire after its last event time is late when the watermark is at
its end and the lateness. -/
theorem late_iff_of_guarantee (hr : r.guarantee w = w.maxTimestamp) (hw : .least < w.stop) :
    r.Late w ↔ ∃ now, r.watermark = some now ∧
      w.stop.millis + r.allowedLateness ≤ now.millis := by
  unfold Late
  rw [hr, Window.maxTimestamp_millis hw]
  refine exists_congr fun now => and_congr_right fun _ => ?_
  omega

/-! ## Elements -/

section Elements

variable [StateStore σ]

theorem fate_late_iff : r.fate w = .dropped .pastAllowedLateness ↔ r.Late w := by
  have hexamine : Ensures (fun r' => r' = r) (examine w)
      (fun found _ => found = .error .pastAllowedLateness ↔ r.expired w = true)
      fun _ _ => r.expired w = false := by
    refine .bind (Q := fun a _ => a = r ∧ True) (.get fun _ h => ⟨h, trivial⟩) fun a =>
      .of_fact ?_
    rintro rfl
    refine .ite (fun he => .pure fun _ _ => iff_of_true rfl he) fun he => ?_
    refine .bind (Q := fun _ _ => True) ((usingStore_keeps fun _ _ h => h).onFail fun _ _ _ =>
      Bool.eq_false_iff.2 he) fun s => .bind (Q := fun _ _ => True) (.get fun _ h => h) fun b => ?_
    exact .ite (fun _ => .pure fun _ _ => iff_of_false nofun he) fun _ =>
      .pure fun _ _ => iff_of_false nofun he
  have hfound := hexamine r rfl
  rw [← expired_iff_late]
  unfold fate
  rcases hx : examine w r with ⟨reason | s, r'⟩ | ⟨e, r'⟩ <;> rw [hx] at hfound
  · simpa using hfound
  · simpa using hfound
  · simp [hfound]

variable {assigned : List Window} {t : Timestamp}

/-- What the delivery to one window keeps holds at every window that an element comes to. -/
theorem visitsFrom_keeps {J : Runner κ σ → Prop}
    (hJ : ∀ w, Preserves J (deliver assigned t w : RunnerM κ σ Unit)) :
    ∀ (ws : List Window) {r : Runner κ σ}, J r → ∀ x ∈ visitsFrom assigned t r ws, J x.1
  | [], _, _, _, hx => (List.not_mem_nil hx).elim
  | w :: ws, r, hr, x, hx => by
    cases hd : deliver assigned t w r with
    | ok _ r' =>
      rw [visitsFrom_of_ok hd] at hx
      rcases List.mem_cons.1 hx with rfl | hx
      · exact hr
      · exact visitsFrom_keeps hJ ws ((hJ w).of_ok hr hd) x hx
    | error e r' =>
      rw [visitsFrom_of_error hd] at hx
      rw [List.mem_singleton.1 hx]
      exact hr

/-- Whether a window is late does not change while an element comes to its windows. -/
theorem late_of_visit (ws : List Window) (r : Runner κ σ) :
    ∀ x ∈ visitsFrom assigned t r ws, ∀ w, x.1.Late w ↔ r.Late w := by
  let J : Runner κ σ → Prop := fun r' => ∀ w, r'.Late w ↔ r.Late w
  have hJ : Unnoted J := fun _ _ _ _ _ h => h
  exact visitsFrom_keeps (J := J) (fun w => hJ.deliver (fun _ _ h => h) fun _ h => h) ws
    fun _ => Iff.rfl

/-- How many late drops a runner counts after an element came to a window. -/
theorem deliver_droppedLate :
    Ensures (fun r' => r' = r) (deliver assigned t w)
      (fun _ r' => r'.telemetry.droppedLate = r.telemetry.droppedLate +
        if r.expired w then 1 else 0)
      fun _ r' => r'.telemetry.droppedLate = r.telemetry.droppedLate +
        if r.expired w then 1 else 0 := by
  let J : Runner κ σ → Prop := fun r' => r'.telemetry.droppedLate = r.telemetry.droppedLate
  refine .bind (Q := fun a r' => a = r ∧ r' = r) (.get fun _ h => ⟨h, h⟩) fun a => .of_fact ?_
  rintro rfl
  refine .ite (fun he => .modify ?_) fun he => ?_
  · rintro _ rfl
    rw [if_pos he]
    rfl
  rw [if_neg he]
  refine Ensures.mono (P := J) ?_ (by rintro _ rfl; rfl) (fun _ _ h => h) fun _ _ h => h
  have hstore : ∀ {α : Type} (act : EStateM StoreError σ α), Preserves J (usingStore act) :=
    fun _ => usingStore_keeps fun _ _ h => h
  refine .bind (hstore _) fun s => .bind (Q := fun _ => J) (.get fun _ h => h) fun b =>
    .ite (fun _ => .modify fun _ h => h) fun _ => ?_
  have hevaluating : ∀ act, Preserves J (evaluating w s act) := fun act r' hr' => by
    unfold evaluating
    cases act (r'.scope w) r'.root { state := s } with
    | ok _ p => exact hr'
    | error e p => exact hr'
  exact .bind (hevaluating _) fun s' => .bind (Q := fun _ => J) (.modify fun _ h => h) fun _ =>
    .bind (hstore _) fun _ => .modify fun _ h => h

theorem delivered_droppedLate : ∀ (ws : List Window) (r : Runner κ σ),
    (delivered assigned t ws r).telemetry.droppedLate = r.telemetry.droppedLate +
      (visitsFrom assigned t r ws).countP fun x => x.1.expired x.2
  | [], r => rfl
  | w :: ws, r => by
    have hdeliver : Ensures (fun r' => r' = r) (deliver assigned t w) _ _ := deliver_droppedLate
    have hcount := hdeliver r rfl
    cases hd : deliver assigned t w r with
    | ok _ r' =>
      rw [hd] at hcount
      rw [delivered_of_ok hd, visitsFrom_of_ok hd, List.countP_cons,
        delivered_droppedLate ws r', hcount]
      dsimp only
      omega
    | error e r' =>
      rw [hd] at hcount
      rw [delivered_of_error hd, visitsFrom_of_error hd, List.countP_singleton, hcount]

end Elements

/-! ## Ends of windows -/

/-- Wherever the tree or the runner asks whether the window has ended, it is told whether the
watermark has come to its end. -/
structure EndsAtStop (r : Runner κ σ) (w : Window) : Prop where
  leaf_ready : ∀ p s,
    ((⟨p, .endOfWindow⟩ : Leaf κ).ready (r.scope w) s = .ok true ↔ r.AtEnd w) ∧
    ((⟨p, .endOfWindow⟩ : Leaf κ).ready (r.scope w) s = .ok false ↔ ¬r.AtEnd w)
  composite_ready : ∀ (c : EarlyAndLate κ) p s b, s.finished (c.earlyAt p).position = false →
    (c.earlyAt p).ready (r.scope w) s = .ok b →
    (Node.ready ⟨p, .earlyAndLate c⟩ (r.scope w) s = .ok true ↔ b = true ∨ r.AtEnd w) ∧
    (Node.ready ⟨p, .earlyAndLate c⟩ (r.scope w) s = .ok false ↔ b = false ∧ ¬r.AtEnd w)
  leaf_merge : ∀ p ms a, ∃ a',
    (⟨p, .endOfWindow⟩ : Leaf κ).onMerge (r.scope w) ms a = .ok () a' ∧
      (a'.state.finished p = true ↔ finishedInAll ms p = true ∧ r.AtEnd w)
  composite_merge : ∀ (c : EarlyAndLate κ) ms a a', c.Customs MergesOwnNode →
    (Node.root (.earlyAndLate c)).onMerge (r.scope w) ms a = .ok () a' →
    (a'.state.finished .early = true ↔ finishedInAll ms .early = true ∧ r.AtEnd w)
  closing : ∀ ms s, (r.closeMerged ms w s).finished r.root.position = true ↔
    s.finished r.root.position = true ∨
      ms ≠ [] ∧ finishedInAll ms r.root.position = true ∧ r.AtEnd w

theorem endsAtStop (r : Runner κ σ) (hw : .least < w.stop) : r.EndsAtStop w where
  leaf_ready p s := by
    have hready : (⟨p, .endOfWindow⟩ : Leaf κ).ready (r.scope w) s =
        .ok (w.endedBy r.watermark) := rfl
    rw [hready, ← endedBy_iff_atEnd hw]
    simp
  composite_ready c p s b hearly hb := by
    have hready : Node.ready ⟨p, .earlyAndLate c⟩ (r.scope w) s =
        .ok (b || w.endedBy r.watermark) := by
      simp only [Node.ready_earlyAndLate, hearly, hb]
      rfl
    rw [hready, ← endedBy_iff_atEnd hw]
    simp
  leaf_merge p ms a := by
    refine ⟨{ a with state := a.state.setFinished p (finishedInAll ms p && (r.scope w).ended) },
      rfl, ?_⟩
    rw [WindowState.finished_setFinished, if_pos rfl, Bool.and_eq_true, ← endedBy_iff_atEnd hw]
    rfl
  composite_merge c ms a a' hc h := by
    have hk : ∀ l ∈ (Node.root (.earlyAndLate c)).leaves, l.trigger.IfCustom fun k =>
        HookDoes (NodeAt l.position) True (CustomTrigger.onMerge k (l.site (r.scope w)) ms) :=
      fun l hl => (hc.leaves l hl).mono fun k hk => .of_ok (hk _ ms) (.inl trivial)
    have hreconciled := (EarlyAndLate.onMerge_ensures NodeAt.refl hk).of_ok rfl h
    rw [hreconciled.finished_early, Bool.and_eq_true, ← endedBy_iff_atEnd hw]
    rfl
  closing ms s := by
    have hcloses :
        (w.endedBy r.watermark && !ms.isEmpty && finishedInAll ms r.root.position) = true ↔
          ms ≠ [] ∧ finishedInAll ms r.root.position = true ∧ r.AtEnd w := by
      rw [← endedBy_iff_atEnd hw]
      simp only [Bool.and_eq_true, Bool.not_eq_true', List.isEmpty_eq_false_iff]
      tauto
    rw [← hcloses]
    unfold closeMerged
    split_ifs with h
    · simp [h, WindowState.finished_setFinished]
    · simp [h]

/-! ## All decisions -/

/-- Late drops, collections and ends of windows are decided by the watermark as if event times had
no greatest and no least. A window is late when the watermark is past its guarantee and the
lateness. A tree that guarantees the end of the window is late when the watermark is at the end and
the lateness. -/
theorem decided_by_exact_times [StateStore σ] (r : Runner κ σ) :
    (∀ ws t, (∀ x ∈ visitsFrom ws t r ws,
        x.1.fate x.2 = .dropped .pastAllowedLateness ↔ r.Late x.2) ∧
      (r.step (.element ws t)).2.telemetry.droppedLate = r.telemetry.droppedLate +
        (visitsFrom ws t r ws).countP fun x =>
          decide (x.1.fate x.2 = .dropped .pastAllowedLateness)) ∧
    (∃ candidates, garbageCollect r = collectEach candidates r ∧
      candidates.Pairwise (fun u w => compare u w = .lt) ∧
      ∀ w, w ∈ candidates ↔ w ∈ r.active ∧ r.Late w) ∧
    (∀ w : Window, .least < w.stop → r.EndsAtStop w) ∧
    ((r.root.trigger = .once .endOfWindow ∨ ∃ c, r.root.trigger = .earlyAndLate c) →
      ∀ w : Window, .least < w.stop → (r.Late w ↔ ∃ now, r.watermark = some now ∧
        w.stop.millis + r.allowedLateness ≤ now.millis)) := by
  have hfate : ∀ (r : Runner κ σ) w,
      decide (r.fate w = .dropped .pastAllowedLateness) = r.expired w := fun r w => by
    rw [Bool.eq_iff_iff, decide_eq_true_iff, fate_late_iff, expired_iff_late]
  refine ⟨fun ws t => ⟨fun x hx => ?_, ?_⟩, ⟨r.active.toList.filter r.expired, rfl, ?_, ?_⟩,
    fun w => r.endsAtStop, fun hroot w hw => late_iff_of_guarantee ?_ hw⟩
  · rw [fate_late_iff]
    exact late_of_visit ws r x hx x.2
  · simp only [hfate]
    rw [step_element, delivered_droppedLate]
  · exact Std.ExtTreeSet.ordered_toList.filter _
  · intro w
    rw [List.mem_filter, Std.ExtTreeSet.mem_toList, expired_iff_late]
  · unfold guarantee
    rcases hroot with hroot | ⟨c, hroot⟩ <;> rw [hroot] <;> rfl

/-- The watermark and the lateness are the greatest there are. The first window ends just after the
least event time and is late. The second ends after time zero and would be late at a watermark that
is out of range, so it takes the element, although it has ended. -/
theorem decided_by_exact_times_at_the_limits :
    let c : EarlyAndLate ScriptedTrigger := ⟨.custom {}, none⟩
    let low : Window := ⟨.least, .clamp (-9223372036854775807)⟩
    let high : Window := ⟨.clamp 0, .clamp 10⟩
    let r := (start (.earlyAndLate c) { allowedLateness := RunnerConfig.maxLateness }
      MemoryStore.empty).run [.advance .greatest]
    r.root.trigger = .earlyAndLate c ∧ .least < low.stop ∧ .least < high.stop ∧
      r.fate low = .dropped .pastAllowedLateness ∧ ¬r.Late high ∧
      (r.step (.element [low, high] (.clamp 3))).2.telemetry.droppedLate = 1 ∧
      ∀ ms a a', (Node.root (.earlyAndLate c)).onMerge (r.scope high) ms a = .ok () a' →
        (a'.state.finished .early = true ↔ finishedInAll ms .early = true) := by
  intro c low high r
  have hroot : r.root.trigger = .earlyAndLate c := rfl
  have hlow : .least < low.stop := by decide
  have hhigh : .least < high.stop := by decide
  obtain ⟨helement, -, hends, hlate⟩ := decided_by_exact_times r
  obtain ⟨hdropped, -⟩ := helement [low, high] (.clamp 3)
  refine ⟨hroot, hlow, hhigh, ?_, ?_, by decide +kernel, fun ms a a' h => ?_⟩
  · rw [hdropped (r, low) List.mem_cons_self, hlate (.inr ⟨c, hroot⟩) low hlow]
    exact ⟨.greatest, rfl, by decide⟩
  · rw [hlate (.inr ⟨c, hroot⟩) high hhigh]
    rintro ⟨now, -, hnow⟩
    have hstop : high.stop.millis = 10 := rfl
    have hlateness : r.allowedLateness = 9223372036854775807 := rfl
    have hgreatest := now.le_greatest
    omega
  · have hc : c.Customs MergesOwnNode := ⟨ScriptedTrigger.mergesOwnNode _, nofun⟩
    rw [(hends high hhigh).composite_merge c ms a a' hc h]
    exact and_iff_left ⟨.greatest, rfl, by decide⟩

end Runner

end PaneTriggers
