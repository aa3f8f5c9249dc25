import Mathlib.Data.List.Nodup
import PaneTriggers.Proofs.RunnerSteps

/-!
# Moving the watermark in steps

The timers that a drain takes are those of one stretch of the queue, in its order. So two drains
take one after the other what one drain at the later time takes (`TimerQueue.drain_later`). A window
with several timers may be woken by more than one of several watermarks. With its later occurrences
left out they wake what the greatest of them wakes at once (`Runner.advance_in_steps`), and
watermarks that come too early wake nothing and do no harm.
-/

namespace PaneTriggers

section Duplicates

variable {α : Type} [DecidableEq α]

theorem eraseDups_filter (p : α → Bool) : ∀ l : List α,
    (l.filter p).eraseDups = l.eraseDups.filter p
  | [] => rfl
  | a :: l => by
    have hlt : (l.filter fun b => !b == a).length < l.length + 1 :=
      Nat.lt_succ_of_le (List.length_filter_le _ _)
    rw [List.eraseDups_cons, List.filter_cons, List.filter_cons, ← eraseDups_filter p]
    by_cases ha : p a = true
    · rw [if_pos ha, if_pos ha, List.eraseDups_cons, List.filter_filter, List.filter_filter]
      simp only [Bool.and_comm]
    · -- What `p` leaves out of the tail has no occurrence of `a` to erase.
      rw [if_neg ha, if_neg ha, List.filter_filter]
      congr 1
      refine List.filter_congr fun b _ => ?_
      by_cases hb : b = a
      · simp [hb, ha]
      · simp [hb]
termination_by l => l.length

theorem nodup_eraseDups : ∀ l : List α, l.eraseDups.Nodup
  | [] => List.nodup_nil
  | a :: l => by
    have hlt : (l.filter fun b => !b == a).length < l.length + 1 :=
      Nat.lt_succ_of_le (List.length_filter_le _ _)
    rw [List.eraseDups_cons]
    exact List.nodup_cons.2 ⟨by simp, nodup_eraseDups _⟩
termination_by l => l.length

theorem eraseDups_of_nodup : ∀ {l : List α}, l.Nodup → l.eraseDups = l
  | [], _ => rfl
  | a :: l, h => by
    obtain ⟨ha, hl⟩ := List.nodup_cons.1 h
    have hfilter : (l.filter fun b => !b == a) = l :=
      List.filter_eq_self.2 fun b hb => by simp [ne_of_mem_of_not_mem hb ha]
    rw [List.eraseDups_cons, hfilter, eraseDups_of_nodup hl]

/-- The first occurrences in two lists are those in their first occurrences. -/
theorem eraseDups_append_eraseDups (l m : List α) :
    (l.eraseDups ++ m.eraseDups).eraseDups = (l ++ m).eraseDups := by
  have hself : ∀ k : List α, k.eraseDups.eraseDups = k.eraseDups := fun k =>
    eraseDups_of_nodup (nodup_eraseDups k)
  have hremove : m.eraseDups.removeAll l.eraseDups = (m.removeAll l).eraseDups := by
    unfold List.removeAll
    rw [eraseDups_filter]
    exact List.filter_congr fun b _ => by simp
  rw [List.eraseDups_append, List.eraseDups_append, hself, hremove, hself]

end Duplicates

namespace Timestamp

variable {t u : Timestamp}

theorem later_millis (t u : Timestamp) :
    (t.later u).millis = if t.millis ≤ u.millis then u.millis else t.millis := by
  unfold later
  simp only [le_iff]
  split_ifs <;> rfl

theorem later_of_ge (h : u ≤ t) : t.later u = t := by
  refine Timestamp.ext ?_
  rw [le_iff] at h
  rw [later_millis]
  split_ifs <;> omega

/-- The latest of one time and others. -/
def latest : Timestamp → List Timestamp → Timestamp
  | t, [] => t
  | t, u :: ts => t.later (latest u ts)

theorem latest_mem : ∀ (t : Timestamp) (ts : List Timestamp), latest t ts ∈ t :: ts
  | t, [] => List.mem_cons_self
  | t, u :: ts => by
    unfold latest later
    split_ifs
    · exact List.mem_cons_of_mem t (latest_mem u ts)
    · exact List.mem_cons_self

theorem le_latest : ∀ (t : Timestamp) (ts : List Timestamp), ∀ x ∈ t :: ts, x ≤ latest t ts
  | t, [], x, hx => by
    rw [List.mem_singleton.1 hx]
    exact le_iff.2 (Int.le_refl _)
  | t, u :: ts, x, hx => by
    unfold latest
    rw [le_iff, later_millis]
    rcases List.mem_cons.1 hx with rfl | hx
    · split_ifs <;> omega
    · have hle := le_iff.1 (le_latest u ts x hx)
      split_ifs
      · exact hle
      · omega

end Timestamp

namespace TimerQueue

variable {q : TimerQueue} {d : TimeDomain} {t u : Timestamp}

theorem expires_iff {x : Timer} : expires d t x = true ↔ x.domain = d ∧ x.timestamp < t := by
  unfold expires
  simp

theorem expires_later {x : Timer} :
    expires d (t.later u) x = (expires d t x || expires d u x) := by
  rw [Bool.eq_iff_iff, Bool.or_eq_true, expires_iff, expires_iff, expires_iff, ← and_or_left]
  refine and_congr_right fun _ => ?_
  simp only [Timestamp.lt_iff, Timestamp.later_millis]
  split_ifs <;> omega

/-- Of two timers of one domain, the one that comes first in the queue is not the later one. -/
theorem timestamp_le_of_lt {x y : Timer} (hd : x.domain = y.domain) (h : compare x y = .lt) :
    x.timestamp ≤ y.timestamp := by
  rw [Timestamp.le_iff]
  rcases Timer.compare_eq_lt_iff.1 h with hrank | ⟨-, ht | ⟨ht, -⟩⟩
  · rw [hd] at hrank
    exact absurd hrank (Nat.lt_irrefl _)
  · exact Int.le_of_lt (Timestamp.lt_iff.1 ht)
  · exact Int.le_of_eq (congrArg Timestamp.millis ht)

/-- A drain takes the first of the timers that one at a later time takes. -/
theorem filter_expires_later : ∀ l : List Timer, l.Pairwise (fun x y => compare x y = .lt) →
    l.filter (expires d (t.later u)) =
      l.filter (expires d t) ++ (l.filter fun x => !expires d t x).filter (expires d u)
  | [], _ => rfl
  | x :: l, h => by
    obtain ⟨hx, hl⟩ := List.pairwise_cons.1 h
    have ih := filter_expires_later l hl
    rcases ht : expires d t x
    · rcases hu : expires d u x
      · simp [expires_later, ht, hu, ih]
      · -- Nothing after `x` is taken at the earlier time, as `x` itself is not.
        have hnone : l.filter (expires d t) = [] := by
          refine List.filter_eq_nil_iff.2 fun y hy hty => ?_
          obtain ⟨hyd, hyt⟩ := expires_iff.1 hty
          obtain ⟨hxd, -⟩ := expires_iff.1 hu
          have hle := timestamp_le_of_lt (hxd.trans hyd.symm) (hx y hy)
          have hxt : expires d t x = true := by
            rw [Timestamp.le_iff] at hle
            rw [Timestamp.lt_iff] at hyt
            exact expires_iff.2 ⟨hxd, Timestamp.lt_iff.2 (by omega)⟩
          rw [ht] at hxt
          cases hxt
        simp [expires_later, ht, hu, ih, hnone]
    · simp [expires_later, ht, ih]

/-- Two drains take, one after the other, what one at the later time takes. -/
theorem drain_later (q : TimerQueue) (d : TimeDomain) (t u : Timestamp) :
    q.drain d (t.later u) =
      ((q.drain d t).1 ++ ((q.drain d t).2.drain d u).1, ((q.drain d t).2.drain d u).2) := by
  refine Prod.ext ?_ (TimerQueue.ext (Std.ExtTreeSet.ext_mem fun x => ?_))
  · have hleft : (q.drain d t).2.toList = q.toList.filter fun x => !expires d t x :=
      Std.ExtTreeSet.toList_filter
    show q.toList.filter _ = q.toList.filter _ ++ (q.drain d t).2.toList.filter _
    rw [hleft]
    exact filter_expires_later q.toList q.pending.ordered_toList
  · rw [mem_pending, mem_pending, mem_drain, mem_drain, mem_drain, expires_later, Bool.or_eq_true]
    tauto

end TimerQueue

namespace Runner

variable {κ σ : Type}

/-- Moves the watermark to each of some times in turn. The windows that are woken are given in the
order in which they are, those that are woken again included. -/
def advanceEach : List Timestamp → Runner κ σ → List Window × Runner κ σ
  | [], r => ([], r)
  | t :: ts, r =>
    let (woken, r) := r.advance t
    let (later, r) := advanceEach ts r
    (woken ++ later, r)

theorem nodup_advance (r : Runner κ σ) (t : Timestamp) : (r.advance t).1.Nodup := by
  obtain ⟨-, h⟩ | ⟨-, h⟩ := r.advance_cases t <;> rw [h]
  · exact List.nodup_nil
  · exact nodup_eraseDups _

theorem advance_of_le {r : Runner κ σ} {t now : Timestamp} (hnow : r.watermark = some now)
    (ht : t ≤ now) : r.advance t = ([], r) := by
  unfold advance
  rw [hnow]
  exact if_pos (decide_eq_true ht)

theorem advance_of_lt {r : Runner κ σ} {t : Timestamp}
    (ht : ∀ now, r.watermark = some now → now < t) :
    r.advance t = (((r.timers.drain .eventTime t).1.map Timer.window).eraseDups,
      { r with watermark := some t, timers := (r.timers.drain .eventTime t).2 }) := by
  obtain ⟨⟨now, hnow, hle⟩, -⟩ | ⟨-, h⟩ := r.advance_cases t
  · have hlt := ht now hnow
    rw [Timestamp.le_iff] at hle
    rw [Timestamp.lt_iff] at hlt
    omega
  · exact h

/-- Two watermarks do, one after the other, what the later one does. -/
theorem advance_later (r : Runner κ σ) (t u : Timestamp) :
    r.advance (t.later u) = (((r.advance t).1 ++ ((r.advance t).2.advance u).1).eraseDups,
      ((r.advance t).2.advance u).2) := by
  by_cases hut : u ≤ t
  · -- The second watermark does not pass the first, nor any that the first did not pass.
    have hnone : (r.advance t).2.advance u = ([], (r.advance t).2) := by
      obtain ⟨⟨now, hnow, hle⟩, ht⟩ | ⟨-, ht⟩ := r.advance_cases t <;> rw [ht]
      · exact advance_of_le hnow (Int.le_trans hut hle)
      · exact advance_of_le rfl hut
    rw [Timestamp.later_of_ge hut, hnone, List.append_nil, eraseDups_of_nodup (r.nodup_advance t)]
  · have htu : t < u := Int.not_le.1 hut
    have hlater : t.later u = u := if_pos (Int.le_of_lt htu)
    obtain ⟨⟨now, hnow, hle⟩, ht⟩ | ⟨hlt, ht⟩ := r.advance_cases t
    · rw [hlater, ht, List.nil_append, eraseDups_of_nodup (r.nodup_advance u)]
    · have hdrain := r.timers.drain_later .eventTime t u
      rw [hlater] at hdrain ⊢
      rw [advance_of_lt fun now hnow => Int.lt_trans (hlt now hnow) htu, ht, hdrain,
        List.map_append, ← eraseDups_append_eraseDups, advance_of_lt]
      rintro _ ⟨⟩
      exact htu

theorem advanceEach_eq : ∀ (t : Timestamp) (ts : List Timestamp) (r : Runner κ σ),
    ((advanceEach (t :: ts) r).1.eraseDups, (advanceEach (t :: ts) r).2) =
      r.advance (Timestamp.latest t ts)
  | t, [], r => by
    show (((r.advance t).1 ++ []).eraseDups, (r.advance t).2) = r.advance t
    rw [List.append_nil, eraseDups_of_nodup (r.nodup_advance t)]
  | t, u :: ts, r => by
    obtain ⟨hwoken, hrunner⟩ := Prod.ext_iff.1 (advanceEach_eq u ts (r.advance t).2)
    show (((r.advance t).1 ++ (advanceEach (u :: ts) (r.advance t).2).1).eraseDups,
      (advanceEach (u :: ts) (r.advance t).2).2) = r.advance (t.later (Timestamp.latest u ts))
    rw [advance_later, ← hwoken, ← hrunner, ← eraseDups_append_eraseDups,
      eraseDups_of_nodup (r.nodup_advance t)]

/-- Watermarks that come one after the other, in any order and some of them again, wake the windows
that the latest of them wakes at once, in the same order, if each is counted when it is woken first.
They leave the same runner. No single watermark wakes a window twice. -/
theorem advance_in_steps (r : Runner κ σ) (t : Timestamp) (ts : List Timestamp) :
    let latest := Timestamp.latest t ts
    (latest ∈ t :: ts ∧ ∀ u ∈ t :: ts, u ≤ latest) ∧
    (advanceEach (t :: ts) r).1.eraseDups = (r.advance latest).1 ∧
    (advanceEach (t :: ts) r).2 = (r.advance latest).2 ∧
    ∀ (r' : Runner κ σ) u, (r'.advance u).1.Nodup := by
  obtain ⟨hwoken, hrunner⟩ := Prod.ext_iff.1 (advanceEach_eq t ts r)
  exact ⟨⟨Timestamp.latest_mem t ts, Timestamp.le_latest t ts⟩, hwoken, hrunner, nodup_advance⟩

end Runner

end PaneTriggers
