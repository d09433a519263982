import SchemaDiagram.Proofs.CommandLine.Run
import SchemaDiagram.Proofs.CommandLine.Workspace
import SchemaDiagram.Proofs.Text.Decoding

/-!
# Exit codes

A run that ends with an exit code has one of three: zero if it did what was asked for, one if the
input, the schema or the output was at fault, and two if it was called in a wrong way. An input file
that cannot be read for a reason of the file system is such a fault, and it is logged.

Not every run ends so. Input that is there but is no text is not among the faults that are looked
for, and neither is a path that is no path. Where standard input takes in bytes that are not UTF-8,
a diagram with such a byte in it is not looked for either, and the file that it was to be written to
is left empty. With a known level of the log these are the only reasons for which a run breaks off
(`exitCode_runOn`).

Two of the reasons are not the program's own. Whether bytes on standard input that are not UTF-8 are
an error is settled by the place where it runs (`Invocation.inputErrors`). And that a file was asked
for but has no name comes of the older custom of reading what is attached to a switch, which is the
one that is followed (`Destination.ofAttached`).
-/

namespace SchemaDiagram
namespace CommandLine

open Log (Level)

variable {w w' : Workspace} {input : ByteArray} {inv : Invocation} {level : Level}
  {i : Option String} {o : Destination}

/-! ## What is not looked for -/

/-- The input is no text: it is in a file, but not in UTF-8, or no file can have its path; or it is
on standard input, not in UTF-8, and this is an error there. -/
def Workspace.IsNoText (w : Workspace) (errors : Text.ErrorHandler) (input : ByteArray) :
    Option String → Prop
  | none => errors = .strict ∧ String.fromUTF8? input = none
  | some path => hasZero path = true ∨ ∃ bytes, w.read path = .ok bytes ∧
      String.fromUTF8? bytes = none ∧ bytes.data.toList ∉ Text.brokenMarks

/-- There is no file that could be written to: it has no name, which comes of reading an attached
separator in the older way, or no file can have its path. -/
def Destination.IsNoFile : Destination → Prop
  | .standardOutput => False
  | .file path => hasZero path = true
  | .unnamedFile => True

theorem ofText?_eq_broken_iff {text : Option Text.Decoded} :
    (∃ why, Source.ofText? text = .broken why) ↔ text = none := by
  cases text <;> simp [Source.ofText?]

theorem Workspace.sourceOf_eq_broken_iff {errors : Text.ErrorHandler} :
    (∃ why, w.sourceOf errors input i = .broken why) ↔ w.IsNoText errors input i := by
  cases i with
  | none => simp only [sourceOf, IsNoText, ofText?_eq_broken_iff, Text.ofStream?_eq_none_iff]
  | some path =>
    cases hzero : hasZero path with
    | true => simp [sourceOf, IsNoText, hzero]
    | false =>
      cases hread : w.read path with
      | error fault => simp [sourceOf, IsNoText, hzero, hread]
      | ok bytes =>
        simp [sourceOf, IsNoText, hzero, hread, ofText?_eq_broken_iff, Text.ofFile?_eq_none_iff]

/-! ## The exit code -/

theorem Ends.exitCode_mem {outcome : Outcome} (h : Ends w input inv (.ok outcome) w') :
    outcome.exitCode ∈ [0, 1, 2] := by
  cases h <;> simp [Outcome.ofEvents, Outcome.ofUsageError]

/-- The run is asked for a diagram, and comes upon something that it does not look for. -/
def IsUnforeseen (w : Workspace) (input : ByteArray) (inv : Invocation) : Prop :=
  ∃ i o, Request.ofArguments inv.arguments = .ok (.draw i o) ∧
    (w.IsNoText inv.inputErrors input i ∨
      o.IsNoFile ∧ ∃ text out, w.sourceOf inv.inputErrors input i = .text text ∧
        draw text.text = .ok out)

theorem Ends.isUnforeseen_or_empties {why : Breakdown} (h : Ends w input inv (.error why) w')
    (hlevel : Session.threshold inv.logLevel = .ok level) :
    IsUnforeseen w input inv ∨ ∃ path, Empties w input inv path w' := by
  cases h with
  | unknownLevel h => simp [hlevel] at h
  | broken h hsource =>
    exact .inl ⟨_, _, h.request, .inl (Workspace.sourceOf_eq_broken_iff.mp ⟨_, hsource⟩)⟩
  | unnamed h hsource hdraw => exact .inl ⟨_, _, h.request, .inr ⟨trivial, _, _, hsource, hdraw⟩⟩
  | zeroInOutput h hsource hdraw hzero =>
    exact .inl ⟨_, _, h.request, .inr ⟨hzero, _, _, hsource, hdraw⟩⟩
  | emptied hlevel h => exact .inr ⟨_, h⟩

theorem IsUnforeseen.exists_ends (h : IsUnforeseen w input inv)
    (hlevel : Session.threshold inv.logLevel = .ok level) :
    ∃ why, Ends w input inv (.error why) w := by
  obtain ⟨i, o, hrequest, htext | ⟨hfile, text, out, hsource, hdraw⟩⟩ := h
  · obtain ⟨why, hsource⟩ := Workspace.sourceOf_eq_broken_iff.mpr htext
    exact ⟨why, .broken ⟨hlevel, hrequest⟩ hsource⟩
  · cases o with
    | standardOutput => exact hfile.elim
    | unnamedFile => exact ⟨_, .unnamed ⟨hlevel, hrequest⟩ hsource hdraw⟩
    | file path => exact ⟨_, .zeroInOutput ⟨hlevel, hrequest⟩ hsource hdraw hfile⟩

/-- **Exit codes.** With a known level of the log, a run ends with exit code zero, one or two,
unless the input is no text or the output is no file, or a byte that standard input has taken in is
to be written: then it breaks off. If the input file cannot be read for a reason of the file system,
this is logged, and the exit code is one. -/
theorem exitCode_runOn (hlevel : Session.threshold inv.logLevel = .ok level) (w : Workspace)
    (input : ByteArray) :
    (¬ IsUnforeseen w input inv → (∀ path w', ¬ Empties w input inv path w') →
      ∃ outcome, (runOn w input inv).1 = .ok outcome ∧ outcome.exitCode ∈ [0, 1, 2]) ∧
    (IsUnforeseen w input inv → ∃ why, runOn w input inv = (.error why, w)) ∧
    (∀ path w', Empties w input inv path w' →
      ¬ inv.ReadsText input ∧ runOn w input inv = (.error .unencodable, w')) ∧
    ∀ path o fault, Request.ofArguments inv.arguments = .ok (.draw (some path) o) →
      hasZero path = false → w.read path = .error fault →
      runOn w input inv =
        (.ok { exitCode := 1, output := "",
               errors := Log.text level [.inputUnavailable path fault.message] }, w) := by
  refine ⟨fun h hempties => ?_, fun h => ?_, fun path w' h => ⟨fun htext => ?_, ?_⟩,
    fun path o fault hrequest hzero hread => ?_⟩
  · have hends := ends_runOn w input inv
    cases hrun : (runOn w input inv).1 with
    | error why =>
      rcases (hrun ▸ hends).isUnforeseen_or_empties hlevel with hunforeseen | ⟨path, hempty⟩
      · exact absurd hunforeseen h
      · exact absurd hempty (hempties path _)
    | ok outcome => exact ⟨outcome, rfl, (hrun ▸ hends).exitCode_mem⟩
  · obtain ⟨why, hends⟩ := h.exists_ends hlevel
    exact ⟨why, hends.eq_runOn⟩
  · exact htext.not_empties h
  · exact (Ends.emptied hlevel h).eq_runOn
  · have hsource : w.sourceOf inv.inputErrors input (some path) = .unavailable path fault := by
      simp [Workspace.sourceOf, hzero, hread]
    exact (Ends.unavailable ⟨hlevel, hrequest⟩ hsource).eq_runOn

/-- A file with a byte that is not UTF-8 makes the run break off. -/
theorem exitCode_runOn_latin :
    let w : Workspace := { files := [(["latin.prisma"],
      ⟨#[0x6D, 0x6F, 0x64, 0x65, 0x6C, 0x20, 0x41, 0xFF, 0x20, 0x7B, 0x7D]⟩)] }
    ∃ why, runOn w .empty { arguments := ["latin.prisma"] } = (.error why, w) := by
  intro w
  have hname : Workspace.IsPlainName "latin.prisma" := ⟨by decide, by decide, by decide⟩
  have hread := hname.read (w := w) (by rfl) rfl
  have hdraws := Invocation.Draws.of_plain (i := some "latin.prisma") (o := none)
    (by simp [Request.IsPlain]) (by simp)
  have hbroken : IsUnforeseen w .empty { arguments := ["latin.prisma"] } :=
    ⟨_, _, hdraws.request, .inl (.inr ⟨_, hread, by rfl, by decide⟩)⟩
  exact (exitCode_runOn rfl w .empty).2.1 hbroken

end CommandLine
end SchemaDiagram
