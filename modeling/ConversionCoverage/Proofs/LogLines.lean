import ConversionCoverage.EventLog
import ConversionCoverage.Proofs.JsonLines
import Mathlib.Data.List.Forall2

/-!
# Logs in JSON

A log that has been set up to write JSON holds a line for each event that reaches the threshold, in
the order of sending and whichever route the event has taken, and nothing else. The line is an
object with the fields of the event, its message, its level and its time.
-/

namespace ConversionCoverage

/-- The threshold that a name stands for: that of the name in capitals if there is one, and else
that for warnings. -/
inductive Level.Named (name : Text) : Level → Prop
  | known {word : String} {level : Level} (hword : (word, level) ∈ thresholds)
    (h : name.toCapitals = word) : Named name level
  | unknown (h : ∀ entry ∈ thresholds, name.toCapitals ≠ entry.1) : Named name .warning

private theorem Level.named_threshold (name : Text) : Named name (threshold name) := by
  rw [threshold]
  split
  · rename_i word level hfind
    have hword := List.find?_some hfind
    exact .known (List.mem_of_find?_eq_some hfind) (of_decide_eq_true hword)
  · rename_i hfind
    refine .unknown fun entry hentry hname => ?_
    exact List.find?_eq_none.mp hfind entry hentry (decide_eq_true hname)

/-! ## One event -/

namespace Event

/-- The names that stand for something else than a field. -/
def reservedNames : List Text := (["event", "level", "timestamp"] : List Text) ++ internalNames

/-- What is told of an event besides its fields. -/
def particulars (stamp : Text) (e : Event) : List (Text × Json) :=
  [Json.member "event" (.text e.message), Json.member "level" (.text e.level.name),
    Json.member "timestamp" (.text stamp)]

/-- All that is told of an event. -/
def toJson (stamp : Text) (e : Event) : Json := .object (e.fields ++ e.particulars stamp)

/-- The fields have names of their own and values that can be printed. -/
structure Tellable [Host] (e : Event) : Prop where
  fields : Json.Readable Numeral.maxDigits (Host.room .printing) (.object e.fields)
  free : ∀ field ∈ e.fields, field.1 ∉ reservedNames

section Tellable

variable [Host] {e : Event} (h : e.Tellable) (stamp : Text)
include h

private theorem Tellable.exists_room : ∃ n, Host.room .printing = n + 1 ∧
    (e.fields.map Prod.fst).Nodup ∧
    ∀ field ∈ e.fields, Json.Readable Numeral.maxDigits n field.2 := by
  obtain ⟨n, hn⟩ := Host.exists_room .printing
  have hfields := h.fields
  rw [hn] at hfields ⊢
  cases hfields with
  | object hnames hvalues => exact ⟨_, rfl, hnames, hvalues⟩

private theorem Tellable.shownFields_eq : e.shownFields = e.fields := by
  refine List.filter_eq_self.mpr fun field hfield => ?_
  have hname : field.1 ∉ internalNames := fun hname =>
    h.free field hfield (List.mem_append_right _ hname)
  simpa using hname

theorem Tellable.nodup_names :
    ((e.fields ++ e.particulars stamp).map Prod.fst).Nodup := by
  have hnames : (e.particulars stamp).map Prod.fst = ["event", "level", "timestamp"] := rfl
  obtain ⟨-, -, hfields, -⟩ := h.exists_room
  rw [List.map_append, hnames]
  refine List.nodup_append.mpr ⟨hfields, by decide, ?_⟩
  rintro name hname reserved hreserved rfl
  obtain ⟨field, hfield, rfl⟩ := List.mem_map.mp hname
  exact h.free field hfield (List.mem_append_left _ hreserved)

theorem Tellable.readable :
    Json.Readable Numeral.maxDigits (Host.room .printing) (e.toJson stamp) := by
  obtain ⟨n, hn, -, hvalues⟩ := h.exists_room
  rw [hn]
  refine .object (h.nodup_names stamp) fun member hmember => ?_
  rcases List.mem_append.mp hmember with hfield | hparticular
  · exact hvalues member hfield
  · simp only [particulars, Json.member, List.mem_cons, List.not_mem_nil, or_false] at hparticular
    rcases hparticular with rfl | rfl | rfl <;> exact .text _

/-- The line of an event tells all of it: no field takes the place of another. -/
theorem Tellable.jsonLine_eq : e.jsonLine stamp = .ok ((e.toJson stamp).toText .asciiLine) := by
  have hmembers : e.jsonMembers stamp = e.fields ++ e.particulars stamp := by
    rw [jsonMembers, h.shownFields_eq]
    exact Json.lastOfEach_eq_self (h.nodup_names stamp)
  rw [jsonLine, hmembers]
  exact (h.readable stamp).toTextWithin_eq .asciiLine

end Tellable

end Event

namespace Sent

def stamp : Sent → Text
  | .structured stamp _ => stamp
  | .plain stamp _ _ => stamp

/-- The event that was sent; without a logger that takes fields there are none. -/
def event : Sent → Event
  | .structured _ e => e
  | .plain _ level message => ⟨level, message, []⟩

/-- All that is told of what was sent. -/
def toJson (s : Sent) : Json := s.event.toJson s.stamp

/-- A line of printable characters that tells all that was sent. It is read as what was sent with
the surrogate pairs in texts joined, which is just what was sent if no two halves stand as a pair. -/
structure IsToldBy [Host] (s : Sent) (line : Text) : Prop where
  printable : line.IsPrintableAscii
  read : Json.readNested Numeral.maxDigits (Host.room .printing) line =
    .ok (s.toJson.reading true)
  exact : s.toJson.EachText Text.Unpaired →
    Json.readNested Numeral.maxDigits (Host.room .printing) line = .ok s.toJson

private theorem isToldBy_toText [Host] {s : Sent} (h : s.event.Tellable) :
    s.IsToldBy (s.toJson.toText .asciiLine) := by
  have hreadable := h.readable s.stamp
  exact ⟨Json.isPrintableAscii_asciiLine hreadable,
    Json.readNested_toText Json.spaced_asciiLine hreadable,
    Json.readNested_asciiLine hreadable⟩

end Sent

/-! ## What a log that has been set up receives -/

namespace EventLog

variable [Host]

theorem receive_configure (log : EventLog) (settings : LogSettings) (s : Sent) :
    (log.configure settings).receive s =
      if settings.threshold.number ≤ s.event.level.number then
        settings.format.emit s.stamp s.event
      else .ok [] := by
  have hhandle (stamp : Text) (e : Event) :
      (log.configure settings).handle stamp e =
        if settings.threshold.number ≤ e.level.number then settings.format.emit stamp e
        else .ok [] := by
    rw [handle]
    refine if_congr Iff.rfl ?_ rfl
    simp only [configure, List.nil_append, List.mapM_cons, List.mapM_nil]
    cases settings.format.emit stamp e with
    | ok text => exact congrArg Except.ok (List.append_nil text)
    | error fault => rfl
  cases s with
  | structured stamp e =>
    rw [receive, hhandle]
    exact ite_eq_left_iff.mpr fun hbelow => (if_neg hbelow).symm
  | plain stamp level message => exact hhandle stamp ⟨level, message, []⟩

theorem write_configure (log : EventLog) (settings : LogSettings) (line : Sent → Text)
    {sent : List Sent}
    (h : ∀ s ∈ sent, settings.threshold.number ≤ s.event.level.number →
      settings.format.line s.stamp s.event = .ok (line s)) :
    (log.configure settings).write sent =
      .ok (((sent.filter fun s =>
        settings.threshold.number ≤ s.event.level.number).map line).flatMap
          fun line => line ++ "\n") := by
  induction sent with
  | nil => rfl
  | cons s sent ih =>
    rw [write, receive_configure, ih fun s hs => h s (List.mem_cons_of_mem _ hs)]
    by_cases hreached : settings.threshold.number ≤ s.event.level.number
    · simp [hreached, LogFormat.emit, h s List.mem_cons_self hreached, bind, Except.bind, pure,
        Except.pure]
    · simp [hreached, bind, Except.bind, pure, Except.pure]

/-- Whatever the log of a process was before it is set up to write JSON, afterwards line breaks cut
its text into one line for each event sent that has at least the level the name of the threshold
stands for, in the order of sending, and each line tells all that was sent. A message by a logger
without fields is received as an event without fields is. -/
theorem json_lines (log : EventLog) (name : Text) {sent : List Sent}
    (hsent : ∀ s ∈ sent, (Level.threshold name).number ≤ s.event.level.number →
      s.event.Tellable) :
    Level.Named name (Level.threshold name) ∧
    (∃ text lines, (log.configure (.ofNames name true)).write sent = .ok text ∧
      text.splitOn '\n' = lines ++ [[]] ∧
      List.Forall₂ Sent.IsToldBy
        (sent.filter fun s => (Level.threshold name).number ≤ s.event.level.number) lines) ∧
    ∀ stamp level message,
      (log.configure (.ofNames name true)).receive (.plain stamp level message) =
        (log.configure (.ofNames name true)).receive (.structured stamp ⟨level, message, []⟩) := by
  have htold (s : Sent)
      (hs : s ∈ sent.filter fun s => (Level.threshold name).number ≤ s.event.level.number) :
      s.IsToldBy (s.toJson.toText .asciiLine) := by
    obtain ⟨hmem, hreached⟩ := List.mem_filter.mp hs
    exact Sent.isToldBy_toText (hsent s hmem (of_decide_eq_true hreached))
  have hline (s : Sent) (hs : s ∈ sent)
      (hreached : (Level.threshold name).number ≤ s.event.level.number) :
      LogFormat.json.line s.stamp s.event = .ok (s.toJson.toText .asciiLine) := by
    rw [LogFormat.line, (hsent s hs hreached).jsonLine_eq]
    rfl
  have hwrite := write_configure log (.ofNames name true) _ hline
  refine ⟨Level.named_threshold name, ⟨_, _, hwrite, Text.splitOn_flatMap ?_, ?_⟩, ?_⟩
  · intro line hline
    obtain ⟨s, hs, rfl⟩ := List.mem_map.mp hline
    exact (htold s hs).printable.newline_notMem
  · exact List.forall₂_map_right_iff.mpr (List.forall₂_same.mpr htold)
  · intro stamp level message
    rw [receive_configure, receive_configure]
    rfl

end EventLog

end ConversionCoverage
