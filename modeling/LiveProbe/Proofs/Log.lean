import LiveProbe.Log
import LiveProbe.Probe.Document
import LiveProbe.Proofs.Text.Lines
import LiveProbe.Warning
import Mathlib.Logic.Basic

/-!
The lines of the log. The tag opens what is written of a record, not every line of it: behind a
line break of the message, or of a target that is shown, the record goes on in lines that hold
nothing but its own text. So the log has one tagged line for each record just in case no record
shows a line break, and else a message may bring in any line, also one that looks like the host's.
-/
namespace LiveProbe

open Text

namespace LogRecord

/-- What is shown of a record behind its level: its target, unless it is the engine's, and its
message. -/
def shown (r : LogRecord) : String :=
  (if Logger.isEngine r.target then "" else r.target ++ ": ") ++ r.text

theorem unbroken_shown_iff (r : LogRecord) :
    Unbroken r.shown.toList ↔
      Unbroken r.text.toList ∧ (Logger.isEngine r.target = false → Unbroken r.target.toList) := by
  cases origin : Logger.isEngine r.target <;> simp [shown, origin, and_comm]

end LogRecord

namespace Palette

def Inline (palette : Palette) : Prop :=
  (∀ colour, Unbroken (palette.start colour).toList) ∧ Unbroken palette.stop.toList

def ansi : Palette where
  start
    | .red => "\x1b[0m\x1b[31m"
    | .yellow => "\x1b[0m\x1b[33m"
    | .blue => "\x1b[0m\x1b[34m"
    | .cyan => "\x1b[0m\x1b[36m"
    | .white => "\x1b[0m\x1b[37m"
  stop := "\x1b[0m"

end Palette

namespace Logger

variable {l : Logger} {palette : Palette} {records : List (String × LogRecord)}

def admitted (l : Logger) (records : List (String × LogRecord)) : List (String × LogRecord) :=
  records.filter fun r => l.enabled r.2.level

def opening (l : Logger) (palette : Palette) (time : String) (level : LogLevel) : String :=
  tag ++ " " ++ (if l.verbose then time ++ " " else "") ++
    (if l.showsLevel level then mark palette level else "")

def linesOf (l : Logger) (palette : Palette) (r : String × LogRecord) : List (List Char) :=
  (pieces r.2.shown.toList).modifyHead ((l.opening palette r.1 r.2.level).toList ++ ·)

def Tagged (line : List Char) : Prop := (tag ++ " ").toList <+: line

instance (line : List Char) : Decidable (Tagged line) :=
  inferInstanceAs (Decidable ((tag ++ " ").toList <+: line))

/-- The log is made of tagged lines, one for each record that the level admits. -/
def Tells (l : Logger) (palette : Palette) (records : List (String × LogRecord)) : Prop :=
  ∃ lines, MadeOf lines (l.write records palette).toList ∧ (∀ line ∈ lines, Tagged line) ∧
    lines.length = (l.admitted records).length

/-- However the lines mingle with those of a host, which are not tagged, the tag tells them. -/
def ToldApart (lines : List (List Char)) : Prop :=
  ∀ host mixed : List (List Char), (∀ line ∈ host, ¬ Tagged line) → mixed.Perm (lines ++ host) →
    (mixed.filter fun line => Tagged line).Perm lines

theorem toldApart_iff {lines : List (List Char)} :
    ToldApart lines ↔ ∀ line ∈ lines, Tagged line := by
  constructor
  · intro apart line member
    have own := apart [] lines (by simp) (by simp)
    have kept := own.symm.subset member
    simpa using (List.mem_filter.mp kept).2
  · intro tagged host mixed untagged mingled
    have kept := mingled.filter fun line => decide (Tagged line)
    have engine : lines.filter (fun line => decide (Tagged line)) = lines := by
      simpa using tagged
    have others : host.filter (fun line => decide (Tagged line)) = [] := by
      simpa using untagged
    simpa [engine, others] using kept

theorem line_eq (l : Logger) (palette : Palette) (time : String) (r : LogRecord) :
    l.line time r palette = l.opening palette time r.level ++ r.shown ++ "\n" := by
  simp [line, heading, opening, LogRecord.shown, String.append_assoc]

theorem unbroken_opening (inline : palette.Inline) {time : String}
    (plain : Unbroken time.toList) (level : LogLevel) :
    Unbroken (l.opening palette time level).toList := by
  have tags : Unbroken tag.toList := by decide
  have column : Unbroken (level.column ++ " ").toList := by cases level <;> decide
  have marked : Unbroken (mark palette level).toList := by
    rw [mark, String.toList_append, String.toList_append]
    simp only [unbroken_append]
    exact ⟨⟨inline.1 level.colour, column⟩, inline.2⟩
  rw [opening, String.toList_append, String.toList_append]
  cases l.verbose <;> cases l.showsLevel level <;> simp [tags, plain, marked]

theorem tagged_opening (time : String) (level : LogLevel) (rest : List Char) :
    Tagged ((l.opening palette time level).toList ++ rest) := by
  simp only [Tagged, opening, String.toList_append, List.append_assoc]
  exact List.prefix_append _ _

theorem madeOf_line (inline : palette.Inline) {r : String × LogRecord}
    (plain : Unbroken r.1.toList) :
    MadeOf (l.linesOf palette r) (l.line r.1 r.2 palette).toList := by
  have opened := unbroken_opening (l := l) inline plain r.2.level
  have made := madeOf_pieces ((l.opening palette r.1 r.2.level).toList ++ r.2.shown.toList)
  rw [pieces_append opened] at made
  simpa [line_eq, linesOf] using made

theorem toList_write (l : Logger) (palette : Palette) (records : List (String × LogRecord)) :
    (l.write records palette).toList =
      (l.admitted records).flatMap fun r => (l.line r.1 r.2 palette).toList := by
  simp [write, admitted, String.toList_join, List.flatMap_map]

theorem madeOf_write (inline : palette.Inline) (plain : ∀ r ∈ records, Unbroken r.1.toList) :
    MadeOf ((l.admitted records).flatMap (l.linesOf palette))
      (l.write records palette).toList := by
  rw [toList_write]
  apply madeOf_flatMap
  intro r member
  exact madeOf_line inline (plain r (List.mem_filter.mp member).1)

theorem linesOf_eq (l : Logger) (palette : Palette) (r : String × LogRecord) :
    ∃ first rest, pieces r.2.shown.toList = first :: rest ∧
      l.linesOf palette r = ((l.opening palette r.1 r.2.level).toList ++ first) :: rest ∧
      Tagged ((l.opening palette r.1 r.2.level).toList ++ first) := by
  cases cut : pieces r.2.shown.toList with
  | nil => exact absurd cut (List.splitOn_ne_nil _ _)
  | cons first rest =>
    exact ⟨first, rest, rfl, by simp [linesOf, cut], tagged_opening _ _ _⟩

theorem forall_tagged_linesOf_iff (r : String × LogRecord) :
    (∀ line ∈ l.linesOf palette r, Tagged line) ↔
      ∀ line ∈ (pieces r.2.shown.toList).tail, Tagged line := by
  obtain ⟨first, rest, cut, lines, tagged⟩ := linesOf_eq l palette r
  simp [cut, lines, tagged]

theorem length_linesOf (l : Logger) (palette : Palette) (r : String × LogRecord) :
    (l.linesOf palette r).length = r.2.shown.toList.count '\n' + 1 := by
  simp [linesOf, length_pieces]

theorem forall_tagged_iff :
    (∀ line ∈ (l.admitted records).flatMap (l.linesOf palette), Tagged line) ↔
      ∀ r ∈ l.admitted records, ∀ line ∈ (pieces r.2.shown.toList).tail, Tagged line := by
  rw [List.forall_mem_flatMap]
  exact forall₂_congr fun r _ => forall_tagged_linesOf_iff r

theorem length_flatMap_linesOf (l : Logger) (palette : Palette)
    (records : List (String × LogRecord)) :
    (records.flatMap (l.linesOf palette)).length =
      records.length + (records.flatMap fun r => r.2.shown.toList).count '\n' := by
  induction records with
  | nil => rfl
  | cons r records ih =>
    simp only [List.flatMap_cons, List.length_append, length_linesOf, ih, List.length_cons,
      List.count_append]
    omega

theorem length_flatMap_linesOf_iff :
    (records.flatMap (l.linesOf palette)).length = records.length ↔
      ∀ r ∈ records, Unbroken r.2.shown.toList := by
  rw [length_flatMap_linesOf, Nat.add_eq_left, List.count_eq_zero]
  simp [Unbroken]

theorem tells_iff (inline : palette.Inline) (plain : ∀ r ∈ records, Unbroken r.1.toList) :
    l.Tells palette records ↔ ∀ r ∈ l.admitted records, Unbroken r.2.shown.toList := by
  have made := madeOf_write (l := l) inline plain
  constructor
  · rintro ⟨lines, made', -, one⟩
    rw [made'.unique made] at one
    exact length_flatMap_linesOf_iff.mp one
  · intro unbroken
    refine ⟨_, made, ?_, length_flatMap_linesOf_iff.mpr unbroken⟩
    rw [forall_tagged_iff]
    intro r member line behind
    simp [pieces_of_unbroken (unbroken r member)] at behind

/-- The log is made of the lines of the records that the level admits, in their order. The first
line of a record is tagged, the others are its own text behind its line breaks, one line for each.
The tag tells the lines from those of a host just in case each of these other lines happens to be
tagged as well; and there is one tagged line for each record just in case no message has a line
break, and no target that is shown. -/
theorem write_tagged (l : Logger) (palette : Palette) (records : List (String × LogRecord))
    (inline : palette.Inline) (plain : ∀ r ∈ records, Unbroken r.1.toList) :
    let admitted := l.admitted records
    let lines := admitted.flatMap (l.linesOf palette)
    MadeOf lines (l.write records palette).toList ∧
    (∀ r ∈ admitted, ∃ first rest, pieces r.2.shown.toList = first :: rest ∧
      l.linesOf palette r = ((l.opening palette r.1 r.2.level).toList ++ first) :: rest ∧
      Tagged ((l.opening palette r.1 r.2.level).toList ++ first)) ∧
    lines.length = admitted.length + (admitted.flatMap fun r => r.2.shown.toList).count '\n' ∧
    (ToldApart lines ↔
      ∀ r ∈ admitted, ∀ line ∈ (pieces r.2.shown.toList).tail, Tagged line) ∧
    (l.Tells palette records ↔ ∀ r ∈ admitted, Unbroken r.2.text.toList ∧
      (isEngine r.2.target = false → Unbroken r.2.target.toList)) := by
  intro admitted lines
  refine ⟨madeOf_write inline plain, ?_, ?_, ?_, ?_⟩
  · intro r _
    exact linesOf_eq l palette r
  · exact length_flatMap_linesOf l palette admitted
  · exact toldApart_iff.trans forall_tagged_iff
  · rw [tells_iff inline plain]
    simp only [LogRecord.unbroken_shown_iff]
    rfl

/-- In colours and with their times: a message of two lines, and a record that is not admitted. -/
theorem write_tagged_coloured :
    let l : Logger := ⟨some .debug⟩
    let records : List (String × LogRecord) :=
      [("12:00:00.000000", ⟨.warn, "probekit::notify", "two\nlines"⟩),
       ("12:00:00.000001", ⟨.trace, "app", "hidden"⟩)]
    Palette.ansi.Inline ∧ (∀ r ∈ records, Unbroken r.1.toList) ∧
      MadeOf ["[probekit] 12:00:00.000000 \x1b[0m\x1b[33mWARN  \x1b[0mtwo".toList, "lines".toList]
        (l.write records .ansi).toList ∧
      ¬ l.Tells .ansi records := by
  intro l records
  have inline : Palette.ansi.Inline := ⟨fun colour => by cases colour <;> decide, by decide⟩
  have plain : ∀ r ∈ records, Unbroken r.1.toList := by decide
  obtain ⟨made, -, -, -, law⟩ := write_tagged l .ansi records inline plain
  have lines : (l.admitted records).flatMap (l.linesOf .ansi) =
      ["[probekit] 12:00:00.000000 \x1b[0m\x1b[33mWARN  \x1b[0mtwo".toList,
        "lines".toList] := by decide +kernel
  refine ⟨inline, plain, lines ▸ made, ?_⟩
  rw [law]
  decide +kernel

/-- The identifier of a document that is refused brings a line into the log that looks like one of
the host. -/
theorem write_untagged :
    let document : Json :=
      .object [("id", .string "p\n[host] ready"), ("type", .string "LOG_PROBE"), ("where", .bool true)]
    let e : Error := .malformedConfig "probe p\n[host] ready: 'where' is not an object"
    let l : Logger := ⟨some .warn⟩
    let r : String × LogRecord := ("12:00:00.000000",
      ⟨.warn, "probekit::remote::processor", (Warning.documentRefused e).message⟩)
    let host := "[host] ready: 'where' is not an object".toList
    Probe.ofDocument document = .error e ∧
      MadeOf [("[probekit] WARN  Could not apply probe configuration: " ++
        "Malformed probe configuration: probe p").toList, host] (l.write [r]).toList ∧
      ¬ Tagged host ∧ ¬ l.Tells {} [r] := by
  intro document e l r host
  have inline : Palette.Inline {} := ⟨fun _ => unbroken_nil, unbroken_nil⟩
  have plain : ∀ s ∈ [r], Unbroken s.1.toList := by decide
  have made := madeOf_write (l := l) inline plain
  have lines : (l.admitted [r]).flatMap (l.linesOf {}) =
      [("[probekit] WARN  Could not apply probe configuration: " ++
        "Malformed probe configuration: probe p").toList, host] := by decide +kernel
  rw [lines] at made
  have untagged : ¬ Tagged host := by decide +kernel
  refine ⟨rfl, made, untagged, ?_⟩
  rintro ⟨others, made', tagged, -⟩
  rw [made'.unique made] at tagged
  exact untagged (tagged host (by simp))

end Logger
end LiveProbe
