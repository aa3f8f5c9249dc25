import Mathlib.Data.List.Chain
import PaneTriggers.Log.Rotating

/-!
# The segments of a log

The lines that a log has written lie in its segments one after the other, in front of them those in
the segments that rotations have dropped (`RotatingLog.lost`). A line starts a new segment only
where the last one has no room for it, so no segment but the active one is empty, and none is longer
than `maxBytes` unless it holds a single line (`RotatingLog.History`). One written line keeps this
(`History.write`), and so does a run of calls that write lines and change the level
(`History.calls`).
-/

namespace PaneTriggers

/-- A call of a log. -/
inductive LogCall where
  | setLevel (level : LogLevel)
  | log (record : LogRecord)

/-- The lines of the records at or above the level in force, which is `level` at first. -/
def LogCall.accepted : LogLevel → List LogCall → List String
  | _, [] => []
  | _, .setLevel level :: cs => accepted level cs
  | level, .log r :: cs =>
    if level.severity ≤ r.level.severity then r.line :: accepted level cs else accepted level cs

namespace LogSegment

/-- The bytes of some lines. -/
def byteSize : List String → Nat
  | [] => 0
  | line :: lines => line.utf8ByteSize + byteSize lines

/-- The bytes are those of the lines, and no more than `maxBytes` unless there is only one line. -/
structure Bounded (maxBytes : Nat) (s : LogSegment) : Prop where
  bytes_eq : s.bytes = byteSize s.lines
  bytes_le : s.bytes ≤ maxBytes ∨ s.lines.length = 1

/-- The first line of the second segment does not fit into the first. -/
def Overflows (maxBytes : Nat) (s s' : LogSegment) : Prop :=
  ∃ line, s'.lines.head? = some line ∧ maxBytes < s.bytes + line.utf8ByteSize

variable {maxBytes : Nat} {s s' : LogSegment} {line : String}

theorem byteSize_concat (line : String) : ∀ lines : List String,
    byteSize (lines ++ [line]) = byteSize lines + line.utf8ByteSize
  | [] => Nat.add_comm _ 0
  | first :: lines => by
    rw [List.cons_append, byteSize, byteSize, byteSize_concat line lines, Nat.add_assoc]

theorem Bounded.empty : Bounded maxBytes {} := ⟨rfl, .inl (Nat.zero_le _)⟩

theorem Bounded.single : Bounded maxBytes (push {} line) := ⟨Nat.add_comm 0 _, .inr rfl⟩

theorem Bounded.push (h : Bounded maxBytes s) (hfits : s.fits line.utf8ByteSize maxBytes = true) :
    Bounded maxBytes (s.push line) := by
  have hbytes : s.bytes + line.utf8ByteSize = byteSize (s.lines ++ [line]) := by
    rw [byteSize_concat, h.bytes_eq]
  refine ⟨hbytes, ?_⟩
  unfold fits at hfits
  rw [Bool.or_eq_true, List.isEmpty_iff, decide_eq_true_iff] at hfits
  rcases hfits with hempty | hle
  · exact .inr (by simp [LogSegment.push, hempty])
  · exact .inl hle

theorem Overflows.push (h : Overflows maxBytes s s') : Overflows maxBytes s (s'.push line) := by
  obtain ⟨first, hfirst, hlt⟩ := h
  exact ⟨first, by simp [LogSegment.push, List.head?_append, hfirst], hlt⟩

/-- A line that does not fit finds lines there already, and overflows them. -/
theorem overflows_of_not_fits (h : s.fits line.utf8ByteSize maxBytes = false) :
    s.lines ≠ [] ∧ Overflows maxBytes s (push {} line) := by
  unfold fits at h
  rw [Bool.or_eq_false_iff, List.isEmpty_eq_false_iff, decide_eq_false_iff_not] at h
  exact ⟨h.1, line, rfl, Nat.lt_of_not_le h.2⟩

end LogSegment

namespace RotatingLog

/-- What a call does to a log. -/
def call (l : RotatingLog) : LogCall → RotatingLog
  | .setLevel level => l.setLevel level
  | .log r => l.log r

/-- The log after a run of calls. -/
def calls (l : RotatingLog) (cs : List LogCall) : RotatingLog := cs.foldl call l

/-- The line that a call writes. -/
def line? (l : RotatingLog) : LogCall → Option String
  | .setLevel _ => none
  | .log r => if r.level.severity < l.level.severity then none else some r.line

/-- Whether a line finds no room in the active segment. -/
def overfull (l : RotatingLog) (line : String) : Bool :=
  !l.active.fits line.utf8ByteSize l.policy.maxBytes

/-- Whether a call rotates the active segment away. -/
def rotates (l : RotatingLog) (c : LogCall) : Bool := (l.line? c).any l.overfull

/-- How many rotations a run of calls makes. -/
def rotations (l : RotatingLog) : List LogCall → Nat
  | [] => 0
  | c :: cs => (if l.rotates c then 1 else 0) + rotations (l.call c) cs

/-- The segments that a rotation drops. -/
def evicted (l : RotatingLog) : List LogSegment :=
  l.segments.take (l.segments.length - l.policy.maxFiles)

/-- The segments that the rotations of a run of calls drop, in the order in which they do. -/
def lost (l : RotatingLog) : List LogCall → List LogSegment
  | [] => []
  | c :: cs => (if l.rotates c then l.evicted else []) ++ lost (l.call c) cs

/-- The log has come by `n` rotations from an empty one that it wrote `lines` to. The segments in
`gone` were dropped on the way. -/
structure History (policy : RotationPolicy) (gone : List LogSegment) (lines : List String) (n : Nat)
    (l : RotatingLog) : Prop where
  policy_eq : l.policy = policy
  lines_eq : lines = (gone ++ l.segments).flatMap LogSegment.lines
  rotated_le : l.rotated.length ≤ policy.maxFiles
  rotated_eq : gone.length + l.rotated.length = n
  gone_eq : gone.length = n - policy.maxFiles
  nonempty : ∀ s ∈ gone ++ l.rotated, s.lines ≠ []
  bounded : ∀ s ∈ gone ++ l.segments, s.Bounded policy.maxBytes
  apart : (gone ++ l.segments).IsChain (LogSegment.Overflows policy.maxBytes)

variable {policy : RotationPolicy} {gone : List LogSegment} {lines : List String} {n : Nat}
  {l : RotatingLog} {line : String}

theorem write_of_room (h : l.overfull line = false) :
    l.write line = { l with active := l.active.push line } := by
  unfold overfull at h
  unfold write
  rw [if_pos (by simpa using h)]

theorem write_of_overfull (h : l.overfull line = true) : l.write line = { l with
    rotated := l.segments.drop (l.segments.length - l.policy.maxFiles)
    active := .push {} line } := by
  unfold overfull at h
  unfold write
  rw [if_neg (by simpa using h)]
  rfl

theorem History.start (policy : RotationPolicy) (level : LogLevel) :
    History policy [] [] 0 { policy := policy, level := level } where
  policy_eq := rfl
  lines_eq := rfl
  rotated_le := Nat.zero_le _
  rotated_eq := rfl
  gone_eq := (Nat.zero_sub _).symm
  nonempty := nofun
  bounded s hs := by
    obtain rfl := List.mem_singleton.1 hs
    exact .empty
  apart := List.isChain_singleton _

theorem History.fits_eq (h : History policy gone lines n l) (line : String) :
    l.active.fits line.utf8ByteSize policy.maxBytes = !l.overfull line := by
  unfold overfull
  rw [h.policy_eq, Bool.not_not]

/-- A line that has room changes the last segment only. -/
theorem History.push (h : History policy gone lines n l) (hroom : l.overfull line = false) :
    History policy gone (lines ++ [line]) n { l with active := l.active.push line } where
  policy_eq := h.policy_eq
  lines_eq := by simp [h.lines_eq, segments, LogSegment.push]
  rotated_le := h.rotated_le
  rotated_eq := h.rotated_eq
  gone_eq := h.gone_eq
  nonempty := h.nonempty
  bounded s hs := by
    rw [segments, ← List.append_assoc] at hs
    rcases List.mem_append.1 hs with hs | hs
    · exact h.bounded s (by rw [segments, ← List.append_assoc]; exact List.mem_append_left _ hs)
    · rw [List.mem_singleton.1 hs]
      refine (h.bounded l.active (by simp [segments])).push ?_
      rw [h.fits_eq, hroom]
      rfl
  apart := by
    have hbefore := h.apart
    rw [segments, ← List.append_assoc, List.isChain_append] at hbefore ⊢
    obtain ⟨hchain, -, hlast⟩ := hbefore
    refine ⟨hchain, List.isChain_singleton _, fun s hs s' hs' => ?_⟩
    obtain rfl : l.active.push line = s' := by simpa using hs'
    exact (hlast s hs l.active rfl).push

/-- A line that has none starts a new segment after all that there were. -/
theorem History.rotate (h : History policy gone lines n l) (hfull : l.overfull line = true) :
    History policy (gone ++ l.evicted) (lines ++ [line]) (n + 1) { l with
      rotated := l.segments.drop (l.segments.length - l.policy.maxFiles)
      active := .push {} line } := by
  have hfits : l.active.fits line.utf8ByteSize policy.maxBytes = false := by
    rw [h.fits_eq, hfull]
    rfl
  obtain ⟨hne, hoverflows⟩ := LogSegment.overflows_of_not_fits hfits
  have hlength : l.segments.length = l.rotated.length + 1 := by simp [segments]
  have hkept : (l.segments.drop (l.segments.length - l.policy.maxFiles)).length =
      l.segments.length - (l.segments.length - policy.maxFiles) := by
    rw [List.length_drop, h.policy_eq]
  have hevicted : l.evicted.length = l.segments.length - policy.maxFiles := by
    rw [evicted, List.length_take, h.policy_eq]
    omega
  -- What was evicted and what is kept are the segments that there were.
  have hwhole : (gone ++ l.evicted) ++ l.segments.drop (l.segments.length - l.policy.maxFiles) =
      gone ++ l.segments := by
    rw [List.append_assoc, evicted, List.take_append_drop]
  have hrotated := h.rotated_le
  have hn := h.rotated_eq
  have hgone := h.gone_eq
  refine ⟨h.policy_eq, ?_, ?_, ?_, ?_, ?_, ?_, ?_⟩
  · rw [segments, ← List.append_assoc, hwhole, List.flatMap_append, ← h.lines_eq]
    rfl
  · dsimp only
    omega
  · rw [List.length_append, hevicted]
    dsimp only
    omega
  · rw [List.length_append, hevicted]
    omega
  · rw [hwhole, segments, ← List.append_assoc]
    intro s hs
    rcases List.mem_append.1 hs with hs | hs
    · exact h.nonempty s hs
    · rw [List.mem_singleton.1 hs]
      exact hne
  · rw [segments, ← List.append_assoc, hwhole]
    intro s hs
    rcases List.mem_append.1 hs with hs | hs
    · exact h.bounded s hs
    · rw [List.mem_singleton.1 hs]
      exact .single
  · rw [segments, ← List.append_assoc, hwhole, List.isChain_append]
    refine ⟨h.apart, List.isChain_singleton _, fun s hs s' hs' => ?_⟩
    obtain rfl : l.active = s := by simpa [segments] using hs
    obtain rfl : LogSegment.push {} line = s' := by simpa using hs'
    exact hoverflows

/-- A written line keeps the history of the log, and is the last in it. -/
theorem History.write (h : History policy gone lines n l) (line : String) :
    History policy (gone ++ if l.overfull line then l.evicted else []) (lines ++ [line])
      (n + if l.overfull line then 1 else 0) (l.write line) := by
  rcases hline : l.overfull line
  · rw [write_of_room hline]
    simpa using h.push hline
  · rw [write_of_overfull hline]
    exact h.rotate hline

theorem write_level (l : RotatingLog) (line : String) : (l.write line).level = l.level := by
  unfold write
  split_ifs <;> rfl

/-- A record below the level is skipped. -/
theorem log_of_below {r : LogRecord} (h : r.level.severity < l.level.severity) :
    l.line? (.log r) = none ∧ l.log r = l :=
  ⟨if_pos h, if_pos h⟩

theorem log_of_above {r : LogRecord} (h : ¬r.level.severity < l.level.severity) :
    l.line? (.log r) = some r.line ∧ l.log r = l.write r.line :=
  ⟨if_neg h, if_neg h⟩

theorem accepted_cons (l : RotatingLog) (c : LogCall) (cs : List LogCall) :
    LogCall.accepted l.level (c :: cs) =
      (l.line? c).toList ++ LogCall.accepted (l.call c).level cs := by
  cases c with
  | setLevel level => rfl
  | log r =>
    show (if _ then _ else _) = _ ++ LogCall.accepted (l.log r).level cs
    by_cases hlevel : r.level.severity < l.level.severity
    · obtain ⟨hline, hlog⟩ := log_of_below hlevel
      rw [if_neg (Nat.not_le.2 hlevel), hline, hlog]
      rfl
    · obtain ⟨hline, hlog⟩ := log_of_above hlevel
      rw [if_pos (Nat.not_lt.1 hlevel), hline, hlog, write_level]
      rfl

/-- A call keeps the history of the log, and what it writes is the last in it. -/
theorem History.call (h : History policy gone lines n l) (c : LogCall) :
    History policy (gone ++ if l.rotates c then l.evicted else []) (lines ++ (l.line? c).toList)
      (n + if l.rotates c then 1 else 0) (l.call c) := by
  cases c with
  | setLevel level =>
    have hset : History policy gone lines n (l.call (.setLevel level)) :=
      ⟨h.policy_eq, h.lines_eq, h.rotated_le, h.rotated_eq, h.gone_eq, h.nonempty, h.bounded,
        h.apart⟩
    simpa [rotates, line?] using hset
  | log r =>
    show History _ _ _ _ (l.log r)
    unfold rotates
    by_cases hlevel : r.level.severity < l.level.severity
    · obtain ⟨hline, hlog⟩ := log_of_below hlevel
      rw [hline, hlog]
      simpa using h
    · obtain ⟨hline, hlog⟩ := log_of_above hlevel
      rw [hline, hlog]
      exact h.write r.line

/-- A run of calls keeps the history, and its last lines are those that the calls should write. -/
theorem History.calls : ∀ (cs : List LogCall) {gone : List LogSegment} {lines : List String}
    {n : Nat} {l : RotatingLog}, History policy gone lines n l →
      History policy (gone ++ l.lost cs) (lines ++ LogCall.accepted l.level cs)
        (n + l.rotations cs) (l.calls cs)
  | [], gone, lines, _, _, h => by
    rw [lost, LogCall.accepted, List.append_nil, List.append_nil]
    exact h
  | c :: cs, _, _, _, l, h => by
    have hcalls := calls cs (h.call c)
    rw [accepted_cons, lost, rotations, ← List.append_assoc, ← List.append_assoc, ← Nat.add_assoc]
    exact hcalls

/-- However a log is written to and its level is changed, the lines that it accepts lie in the
segments that it has lost and those that it has, one after the other. It has lost the oldest
segments, as many as there were rotations beyond `maxFiles`, and keeps `maxFiles` rotated ones at
most. No segment but the active one is empty, each counts the bytes of its lines, which are no more
than `maxBytes` unless it has a single line, and its first line had no room in the one before. -/
theorem segments_tile_accepted (policy : RotationPolicy) (level : LogLevel) (cs : List LogCall) :
    let first : RotatingLog := { policy := policy, level := level }
    let l := first.calls cs
    let lost := first.lost cs
    LogCall.accepted level cs =
        lost.flatMap LogSegment.lines ++ l.segments.flatMap LogSegment.lines ∧
      l.rotated.length ≤ policy.maxFiles ∧
      lost.length + l.rotated.length = first.rotations cs ∧
      lost.length = first.rotations cs - policy.maxFiles ∧
      (∀ s ∈ lost ++ l.rotated, s.lines ≠ []) ∧
      (∀ s ∈ lost ++ l.segments, s.Bounded policy.maxBytes) ∧
      (lost ++ l.segments).IsChain (LogSegment.Overflows policy.maxBytes) := by
  intro first l lost
  have h : History policy lost (LogCall.accepted level cs) (first.rotations cs) l := by
    simpa using (History.start policy level).calls cs
  refine ⟨?_, h.rotated_le, h.rotated_eq, h.gone_eq, h.nonempty, h.bounded, h.apart⟩
  rw [h.lines_eq, List.flatMap_append]

end RotatingLog

end PaneTriggers
