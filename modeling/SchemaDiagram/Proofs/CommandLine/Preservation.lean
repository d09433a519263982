import SchemaDiagram.Proofs.CommandLine.Run
import SchemaDiagram.Proofs.CommandLine.Workspace
import SchemaDiagram.Proofs.Text.Decoding

/-!
# What a run leaves behind

A run writes to one file at most, and only when there is a diagram to be written. So a run that does
not end well leaves everything as it was, and a run that ends well has changed nothing but the file
that was named last (`runOn_preserves`). The diagram in this file is that of the input before the
run, and it does not matter whether the input was the same file.

This needs a place to run where bytes on standard input that are not UTF-8 are an error, if there
are such bytes (`Invocation.ReadsText`). Where they are taken in, the output is opened before it is
found that one of them is to be written, and then the file is left empty. Nothing else can go wrong
there (`Ends.eq_or_empties`), but this does (`exists_emptied`).
-/

namespace SchemaDiagram
namespace CommandLine

variable {w w' : Workspace} {input : ByteArray} {inv : Invocation} {e : Except Breakdown Outcome}

/-! ## Ending well -/

/-- The run has ended with exit code zero. -/
def EndsWell (e : Except Breakdown Outcome) : Prop :=
  ∃ o, e = .ok o ∧ o.exitCode = 0

@[simp] theorem endsWell_ok_iff {o : Outcome} : EndsWell (.ok o) ↔ o.exitCode = 0 := by
  simp [EndsWell]

@[simp] theorem not_endsWell_error (why : Breakdown) : ¬ EndsWell (.error why) := by
  simp [EndsWell]

/-- What the run has put on standard output. A run that breaks off has put nothing there. -/
def printed : Except Breakdown Outcome → String
  | .ok o => o.output
  | .error _ => ""

/-- Only help, the version and a diagram are put on standard output. -/
def IsAnswer (w : Workspace) (input : ByteArray) (inv : Invocation) (output : String) : Prop :=
  output = helpText ∨ output = programName ++ " " ++ version ++ "\n" ∨
    ∃ level i text, inv.Draws level i .standardOutput ∧
      w.sourceOf inv.inputErrors input i = .text text ∧ draw text.text = .ok output

/-- The diagram of the input was written to the file that was named last, and nothing else was
changed. The input is what was there before. -/
structure Delivers (w : Workspace) (input : ByteArray) (inv : Invocation) (path out : String)
    (w' : Workspace) : Prop where
  destination : (Request.destinations inv.arguments).getLast? = some (.file path)
  diagram : ∃ level i text, inv.Draws level i (.file path) ∧
    w.sourceOf inv.inputErrors input i = .text text ∧ draw text.text = .ok out
  change : ∃ l, w.locate path = .ok l ∧ w.Writes l out.toUTF8 w'
  contents : w'.read path = .ok out.toUTF8

/-! ## The two cases -/

/-- **A run that does not end well** puts nothing on standard output, and it leaves everything as it
was, unless it has emptied the file that it was to write to. -/
theorem Ends.eq_or_empties (h : Ends w input inv e w') (hbad : ¬ EndsWell e) :
    (w' = w ∨ ∃ path, Empties w input inv path w') ∧ printed e = "" := by
  cases h with
  | help | version | shown | written => simp [Outcome.ofEvents] at hbad
  | emptied hlevel h => exact ⟨.inr ⟨_, h⟩, rfl⟩
  | _ => exact ⟨.inl rfl, rfl⟩

theorem Ends.of_endsWell (h : Ends w input inv e w') (hgood : EndsWell e) :
    (w' = w ∧ IsAnswer w input inv (printed e)) ∨
      (printed e = "" ∧ ∃ path out, Delivers w input inv path out w') := by
  cases h with
  | help => exact .inl ⟨rfl, .inl rfl⟩
  | version => exact .inl ⟨rfl, .inr (.inl rfl)⟩
  | shown hdraws hsource hdraw => exact .inl ⟨rfl, .inr (.inr ⟨_, _, _, hdraws, hsource, hdraw⟩)⟩
  | written hdraws hsource hdraw hzero hencode hwrite =>
    obtain ⟨-, rfl⟩ := Text.Decoded.encode?_eq_some_iff.mp hencode
    obtain ⟨l, -, hlocate, -, hwrites⟩ := Workspace.write_eq_ok hwrite
    exact .inr ⟨rfl, _, _, Request.getLast?_destinations hdraws.request,
      ⟨_, _, _, hdraws, hsource, hdraw⟩, ⟨l, hlocate, hwrites⟩, Workspace.read_of_write hwrite⟩
  | _ => simp [Outcome.ofEvents, Outcome.ofUsageError] at hgood

/-- **What a run leaves behind.** Let bytes that are not UTF-8 be an error on standard input, or let
there be none. A run that does not end well changes no file and puts nothing on standard output. A
run that ends well either changes no file and gives its answer on standard output, or it puts
nothing there and writes the diagram of the input, as it was before the run, to the file that was
named last, and to no other. -/
theorem runOn_preserves (w : Workspace) (input : ByteArray) (inv : Invocation)
    (hinput : inv.ReadsText input) :
    let e := (runOn w input inv).1
    let w' := (runOn w input inv).2
    (¬ EndsWell e → w' = w ∧ printed e = "") ∧
      (EndsWell e → (w' = w ∧ IsAnswer w input inv (printed e)) ∨
        (printed e = "" ∧ ∃ path out, Delivers w input inv path out w')) := by
  refine ⟨fun hbad => ?_, (ends_runOn w input inv).of_endsWell⟩
  obtain ⟨hsame | ⟨path, hempties⟩, hprinted⟩ := (ends_runOn w input inv).eq_or_empties hbad
  · exact ⟨hsame, hprinted⟩
  · exact absurd hempties hinput.not_empties

/-- A schema that is overwritten with its own diagram; and one that stays when the schema on
standard input has a stray byte in it. -/
theorem runOn_preserves_inPlace :
    let w : Workspace := { files := [(["s"], "model A \x7b\n\x7d".toUTF8)] }
    let stray : ByteArray := ⟨#[0x6D, 0x6F, 0x64, 0x65, 0x6C, 0x20, 0x41, 0xFF, 0x20, 0x7B, 0x7D]⟩
    (∃ out, Delivers w .empty { arguments := ["-o", "s", "s"] } "s" out
      (runOn w .empty { arguments := ["-o", "s", "s"] }).2) ∧
    Invocation.ReadsText { arguments := ["-o", "s"] } stray ∧
    (runOn w stray { arguments := ["-o", "s"] }).2 = w := by
  intro w stray
  have hname : Workspace.IsPlainName "s" := ⟨by decide, by decide, by decide⟩
  have hplain : ∀ path ∈ some "s", Request.IsPlain path := by simp [Request.IsPlain]
  have hstrict (arguments : List String) (input : ByteArray) :
      Invocation.ReadsText { arguments } input := Invocation.readsText_of_strict rfl input
  refine ⟨?_, hstrict _ _, ?_⟩
  · have hdraws : Invocation.Draws { arguments := ["-o", "s", "s"] } .warning (some "s")
        (.file "s") :=
      .of_plain (i := some "s") (o := some "s") hplain hplain
    have hsource : w.sourceOf .strict .empty (some "s") =
        .text { text := "model A \x7b\n\x7d" } := by
      have hread : w.read "s" = .ok "model A \x7b\n\x7d".toUTF8 := hname.read (by rfl) rfl
      simp only [Workspace.sourceOf, hread, Text.ofFile?_toUTF8]
      rfl
    have hdraw : draw "model A \x7b\n\x7d" = .ok "A \x7b\n\tshape: sql_table\n\x7d\n\n" := by
      with_unfolding_all rfl
    have hencode := Text.Decoded.encode?_of_standIns_eq_nil
      (t := { text := "model A \x7b\n\x7d" }) rfl "A \x7b\n\tshape: sql_table\n\x7d\n\n"
    have hends := (Ends.written hdraws hsource hdraw (by decide) hencode
      (hname.write _ (by rfl))).eq_runOn
    have hgood : EndsWell (runOn w .empty { arguments := ["-o", "s", "s"] }).1 := by
      rw [hends]
      exact ⟨_, rfl, rfl⟩
    rcases (runOn_preserves w .empty _ (hstrict _ _)).2 hgood with
      ⟨hsame, -⟩ | ⟨-, path, out, hdelivers⟩
    · rw [hends] at hsame
      have hsize := congrArg (fun w => w.files.map fun f => f.2.size) hsame
      exact absurd hsize (by decide)
    · obtain rfl : path = "s" := by
        have hlast : (Request.destinations ["-o", "s", "s"]).getLast? = some (.file "s") := by rfl
        exact Destination.file.inj (Option.some.inj (hdelivers.destination.symm.trans hlast))
      exact ⟨out, hdelivers⟩
  · have hdraws : Invocation.Draws { arguments := ["-o", "s"] } .warning none (.file "s") :=
      .of_plain (i := none) (o := some "s") (by simp) hplain
    have hsource : w.sourceOf .strict stray none = .broken .undecodable := by
      rw [Workspace.sourceOf, Text.ofStream?_eq_none_iff.mpr ⟨rfl, by decide⟩]
      rfl
    have hbad : ¬ EndsWell (runOn w stray { arguments := ["-o", "s"] }).1 := by
      rw [(Ends.broken hdraws hsource).eq_runOn]
      exact not_endsWell_error _
    exact ((runOn_preserves w stray _ (hstrict _ _)).1 hbad).1

/-- Where stray bytes are taken in, a run that does not end well can leave something else behind:
here a file is emptied because there is such a byte in the diagram. -/
theorem exists_emptied : ∃ (w : Workspace) (input : ByteArray) (inv : Invocation),
    ¬ EndsWell (runOn w input inv).1 ∧ (runOn w input inv).2 ≠ w := by
  let w : Workspace := { files := [(["s"], "model A \x7b\n\x7d".toUTF8)] }
  let input : ByteArray :=
    "model A \x7b\n  a Unsupported(\"".toUTF8 ++ ⟨#[0xFF]⟩ ++ "\")\n\x7d".toUTF8
  let inv : Invocation := { arguments := ["-o", "s"], inputErrors := .escape fun _ => '\uE0FF' }
  let text : Text.Decoded :=
    { text := "model A \x7b\n  a Unsupported(\"\uE0FF\")\n\x7d", standIns := ['\uE0FF'] }
  have hname : Workspace.IsPlainName "s" := ⟨by decide, by decide, by decide⟩
  have hstream : Text.ofStream? inv.inputErrors input = some text := by decide +kernel
  have hsource : w.sourceOf inv.inputErrors input none = .text text :=
    ofText?_eq_text_iff.mpr hstream
  have hdraw : draw text.text = .ok "A \x7b\n\tshape: sql_table\n\ta: \uE0FF\n\x7d\n\n" := by
    decide +kernel
  have hempties : Empties w input inv "s" _ :=
    ⟨by decide, ⟨none, text, _, rfl, hsource, hdraw, by decide +kernel⟩,
      hname.write .empty (by rfl)⟩
  have hlevel : Session.threshold inv.logLevel = .ok .warning := rfl
  have hends := (Ends.emptied hlevel hempties).eq_runOn
  refine ⟨w, input, inv, ?_, fun hsame => ?_⟩
  · rw [hends]
    exact not_endsWell_error _
  · rw [hends] at hsame
    have hsize := congrArg (fun w => w.files.map fun f => f.2.size) hsame
    exact absurd hsize (by decide)

end CommandLine
end SchemaDiagram
