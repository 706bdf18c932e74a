import ExposureKit.Program.Extractor
import ExposureKit.Proofs.Message.ReportLines
import ExposureKit.Proofs.Text.FirstLine

/-!
# What a run of the extractor shows

A run finds a message, or none, or a file that it cannot read.  The exit status 1 stands for a
message and for a file that cannot be read, so it is the output that tells these two apart:
there is some for every message, however it is filled into lines.

* `report_printsLiteral`: what is printed for a message.
* `shows_runOn`: what is shown of each finding, and `Shows.inj`: no two findings look the same.

The main result is `run_outcomes`.
-/

namespace ExposureKit

/-! ## What is printed for a message -/

/-- The output is lines of one to eighty printable characters, and the first of them begins as a
byte-string literal does. -/
def PrintsLiteral (output : String) : Prop :=
  ∃ quote first lines, (quote = '\'' ∨ quote = '"') ∧
    splitOn '\n' output.toList = ('b' :: quote :: first) :: lines ++ [[]] ∧
    ∀ line ∈ ('b' :: quote :: first) :: lines,
      1 ≤ line.length ∧ line.length ≤ 80 ∧ ∀ c ∈ line, ' ' ≤ c ∧ c ≤ '~'

theorem PrintsLiteral.ne_empty {output : String} (h : PrintsLiteral output) : output ≠ "" := by
  obtain ⟨quote, first, lines, -, hsplit, -⟩ := h
  rintro rfl
  simp [splitOn] at hsplit

/-- A message has a first line, even if it is empty. -/
theorem exists_first_line (message : List UInt8) : ∃ quote first lines,
    (quote = '\'' ∨ quote = '"') ∧
      Wrap.wrap Outcome.reportWidth (Literal.ofBytes message) = ('b' :: quote :: first) :: lines := by
  have hquote := Literal.isQuote_delimiter message
  have htext : (Literal.ofBytes message).map blankToSpace = _ :: _ :: _ :=
    Wrap.map_blankToSpace_of_plain (Literal.isPlain_of_mem_ofBytes message)
  have hwidth : 2 ≤ Outcome.reportWidth := by decide
  have hspace := hquote.charOf_ne (c := ' ') (by decide) (by decide)
  have hhyphen := hquote.charOf_ne (c := '-') (by decide) (by decide)
  obtain ⟨first, lines, hlines⟩ := Wrap.wrap_front hwidth htext (by decide) ⟨hspace, hhyphen⟩
  exact ⟨_, first, lines, hquote.charOf_eq, hlines⟩

theorem report_printsLiteral (message : List UInt8) :
    PrintsLiteral (String.join ((Outcome.recovered message).reportLines.map (· ++ "\n"))) := by
  obtain ⟨quote, first, lines, hquote, hlines⟩ := exists_first_line message
  have hplain := Literal.isPlain_of_mem_ofBytes message
  have hrun := Wrap.run_wrap Outcome.reportWidth (Literal.ofBytes message)
  obtain ⟨hne, -⟩ := hrun.bounds_of_pos (by decide) (Wrap.alternating_chunks _)
  refine ⟨quote, first, lines, hquote, ?_, ?_⟩
  · rw [Outcome.splitOn_printed, hlines]
  · intro line hline
    rw [← hlines] at hline
    refine ⟨?_, hrun.length_le line hline, Wrap.isPlain_of_mem_wrap hplain hline⟩
    exact List.length_pos_iff.2 (hne line hline)

namespace Extractor

variable {directory : Directory} {arguments : List String} {path output : String} {code : Nat}

/-! ## What a run finds -/

/-- What there is to be found at a path. -/
inductive Finding where
  /-- A file that cannot be read, or none. -/
  | unreadable
  /-- A file without a message in its head. -/
  | noMessage
  /-- A message. -/
  | message
  deriving DecidableEq, Repr

/-- What is found where this is read. -/
def finding : Except FileFault (List UInt8) → Finding
  | .error _ => .unreadable
  | .ok content =>
    match recover (content.take headLimit) with
    | .ok _ => .message
    | .error _ => .noMessage

/-- What a run shows of its finding: the exit status and the output. -/
inductive Shows : (found : Finding) → (code : Nat) → (output : String) → Prop
  /-- Nothing is printed. -/
  | unreadable : Shows .unreadable 1 ""
  /-- It is said that there is no message. -/
  | noMessage : Shows .noMessage 0 "Failed to decompose message\n"
  /-- The message is printed. -/
  | message {output : String} (hprints : PrintsLiteral output) : Shows .message 1 output

theorem shows_runOn (log : Log) (path : String) (read : Except FileFault (List UInt8)) :
    Shows (finding read) (runOn log path read).code (runOn log path read).output := by
  cases read with
  | error fault => exact .unreadable
  | ok content =>
    cases hrecover : recover (content.take headLimit) with
    | error cause =>
      simp only [finding, runOn, Outcome.ofFile, hrecover]
      exact .noMessage
    | ok message =>
      simp only [finding, runOn, Outcome.ofFile, hrecover]
      exact .message (report_printsLiteral message)

section

variable {found other : Finding}

theorem Shows.noMessage_iff (h : Shows found code output) :
    found = .noMessage ↔ code = 0 ∧ output = "Failed to decompose message\n" := by
  cases h <;> simp

theorem Shows.message_iff (h : Shows found code output) :
    found = .message ↔ code = 1 ∧ output ≠ "" := by
  cases h with
  | unreadable => simp
  | noMessage => simp
  | message hprints => simp [hprints.ne_empty]

theorem Shows.unreadable_iff (h : Shows found code output) :
    found = .unreadable ↔ code = 1 ∧ output = "" := by
  cases h with
  | unreadable => simp
  | noMessage => simp
  | message hprints => simp [hprints.ne_empty]

theorem Shows.printsLiteral (h : Shows .message code output) : PrintsLiteral output := by
  cases h with
  | message hprints => exact hprints

/-- What is shown belongs to one finding only. -/
theorem Shows.inj (h : Shows found code output) (hother : Shows other code output) :
    found = other := by
  cases hother with
  | unreadable => exact h.unreadable_iff.2 ⟨rfl, rfl⟩
  | noMessage => exact h.noMessage_iff.2 ⟨rfl, rfl⟩
  | message hprints => exact h.message_iff.2 ⟨rfl, hprints.ne_empty⟩

end

/-! ## Running -/

/-- A path that does not look like an option is the operand. -/
theorem read_operand (hempty : path ≠ "") (hhyphen : path.toList.head? ≠ some '-') :
    Arguments.read info [path] = .ok (.work (some path)) := by
  have hoperand : Arguments.readFrom info false (some path) [] = .ok (.work (some path)) := by
    simp [Arguments.readFrom, Arguments.settle, info, operand, hempty]
  have hfree : (info.operand.isSome && (none : Option String).isNone) = true := rfl
  rw [Arguments.read, Arguments.readFrom]
  simp only [hfree, Bool.false_eq_true, ↓reduceIte]
  split
  · next heq => simp [heq] at hhyphen
  · next heq => simp [heq] at hhyphen
  · next heq => simp [heq] at hhyphen
  · exact hoperand

/-- With one operand, and nothing said about the log, the work is done on what the path leads
to. -/
theorem run_of_operand (harguments : Arguments.read info arguments = .ok (.work (some path))) :
    run directory none arguments = runOn .standard path (directory.read path) := by
  unfold run Startup.read
  rw [harguments]
  rfl

/-- **The outcomes of a run can be told apart.**  The exit status is 0, with the one line that
says so, just where the file can be read and its head holds no message; it is 1 with some output
just where there is a message, and then the output is lines of one to eighty printable
characters, of which the first begins as a literal; and it is 1 without output just where the
file cannot be read.  Two runs with different findings never have the same exit status and the
same output. -/
theorem run_outcomes {result : ProgramRun}
    (harguments : Arguments.read info arguments = .ok (.work (some path)))
    (hrun : run directory none arguments = result) :
    (finding (directory.read path) = .noMessage ↔
      result.code = 0 ∧ result.output = "Failed to decompose message\n") ∧
    (finding (directory.read path) = .message ↔ result.code = 1 ∧ result.output ≠ "") ∧
    (finding (directory.read path) = .message → PrintsLiteral result.output) ∧
    (finding (directory.read path) = .unreadable ↔ result.code = 1 ∧ result.output = "") ∧
    ∀ otherDirectory otherArguments otherPath,
      Arguments.read info otherArguments = .ok (.work (some otherPath)) →
      (run otherDirectory none otherArguments).code = result.code →
      (run otherDirectory none otherArguments).output = result.output →
      finding (otherDirectory.read otherPath) = finding (directory.read path) := by
  have hshows := shows_runOn .standard path (directory.read path)
  rw [← run_of_operand harguments, hrun] at hshows
  refine ⟨hshows.noMessage_iff, hshows.message_iff, ?_, hshows.unreadable_iff, ?_⟩
  · intro hfound
    rw [hfound] at hshows
    exact hshows.printsLiteral
  · intro otherDirectory otherArguments otherPath hother hcode houtput
    have hothers := shows_runOn .standard otherPath (otherDirectory.read otherPath)
    rw [← run_of_operand hother, hcode, houtput] at hothers
    exact hothers.inj hshows

/-- A marker and one more byte, in a file. -/
def markerFile : Directory := ⟨[("message.bin", .file (marker ++ [0x58]))]⟩

/-- A marker and one more byte hold the empty message, for which there is output; where the file
is missing, there is none. -/
theorem run_outcomes_empty_message :
    Arguments.read info ["message.bin"] = .ok (.work (some "message.bin")) ∧
    finding (markerFile.read "message.bin") = .message ∧
    (run markerFile none ["message.bin"]).code = 1 ∧
    (run markerFile none ["message.bin"]).output ≠ "" ∧
    (run .empty none ["message.bin"]).code = 1 ∧ (run .empty none ["message.bin"]).output = "" := by
  have harguments : Arguments.read info ["message.bin"] = .ok (.work (some "message.bin")) :=
    read_operand (by decide) (by decide)
  have hfound : finding (markerFile.read "message.bin") = .message := by
    have hread : markerFile.read "message.bin" = .ok (marker ++ [0x58]) := rfl
    have hrecover : recover ((marker ++ [0x58]).take headLimit) = .ok [] := by cbv
    rw [hread]
    simp [finding, hrecover]
  have hmissing : finding (Directory.empty.read "message.bin") = .unreadable := rfl
  obtain ⟨-, hmessage, -⟩ := run_outcomes harguments
    (rfl : run markerFile none ["message.bin"] = _)
  obtain ⟨-, -, -, hunreadable, -⟩ := run_outcomes harguments
    (rfl : run .empty none ["message.bin"] = _)
  obtain ⟨hcode, houtput⟩ := hmessage.1 hfound
  exact ⟨harguments, hfound, hcode, houtput, hunreadable.1 hmissing⟩

end Extractor

end ExposureKit
