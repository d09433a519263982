import SchemaDiagram.Proofs.CommandLine.Run
import SchemaDiagram.Proofs.CommandLine.Workspace
import SchemaDiagram.Proofs.Text.Decoding

/-!
# The program draws what the text says

A run reads bytes, while `draw` takes a text. If the input holds a text in UTF-8, the run draws just
this text, or fails with just its error (`runOn_agrees`). What becomes of bytes that are not UTF-8
plays no part in this.

The text that the run works on is not the text of the input, because line ends were made uniform and
a mark was dropped on the way. But a schema is read line by line behind its mark, and these lines
are the same.
-/

namespace SchemaDiagram

/-! ## What a schema is read from -/

/-- A schema is read from the lines behind the mark. -/
theorem Schema.parse_congr {s t : String}
    (h : Text.lines (Text.dropMark s.toList) = Text.lines (Text.dropMark t.toList)) :
    parse s = parse t := by
  rw [parse, parse, parseChars, parseChars, h]

theorem diagramOf_congr {s t : String} (h : Schema.parse s = Schema.parse t) :
    diagramOf s = diagramOf t := by
  rw [diagramOf, diagramOf, h]

theorem draw_congr {s t : String} (h : Schema.parse s = Schema.parse t) : draw s = draw t := by
  rw [draw, draw, diagramOf_congr h]

theorem traceDiagram_congr {s t : String} (h : Schema.parse s = Schema.parse t) :
    traceDiagram s = traceDiagram t := by
  rw [traceDiagram, traceDiagram, Schema.parseTraced, Schema.parseTraced, h]

/-- Before a schema with an error there is nothing to report. -/
theorem events_traceDiagram_of_error {t : String} {e : SchemaError}
    (h : Schema.parse t = .error e) : (traceDiagram t).events = [] := by
  rw [traceDiagram, Schema.parseTraced, h]
  rfl

namespace CommandLine

open Log (Level)

variable {w : Workspace} {input : ByteArray} {inv : Invocation} {level : Level}
  {i : Option String} {o : Destination}

/-! ## The input that holds a text -/

/-- The input holds the text in UTF-8. -/
def Workspace.Holds (w : Workspace) (input : ByteArray) (text : String) : Option String → Prop
  | none => input = text.toUTF8
  | some path => hasZero path = false ∧ w.read path = .ok text.toUTF8

/-- A text that is read from where it is held spells the same schema, and no character in it stands
for a byte. -/
theorem Workspace.Holds.exists_sourceOf {t : String} (h : w.Holds input t i)
    (hmark : ¬ [Text.byteOrderMark, Text.byteOrderMark] <+: t.toList) (errors : Text.ErrorHandler) :
    ∃ s : String, w.sourceOf errors input i = .text { text := s } ∧
      Schema.parse s = Schema.parse t := by
  cases i with
  | none =>
    obtain rfl := h
    exact ⟨_, by rw [sourceOf, Text.ofStream?_toUTF8, Source.ofText?],
      Schema.parse_congr (Text.lines_dropMark_ofStream? (Text.ofStream?_toUTF8 errors t))⟩
  | some path =>
    obtain ⟨hzero, hread⟩ := h
    refine ⟨_, ?_, Schema.parse_congr
      (Text.lines_dropMark_ofFile? hmark (Text.ofFile?_toUTF8 t))⟩
    simp only [sourceOf, hzero, hread, Text.ofFile?_toUTF8, Source.ofText?]
    rfl

/-- The one line that is logged about a schema with an error. -/
theorem text_schemaInvalid (reason : String) :
    Log.text defaultLevel [.schemaInvalid reason] =
      "ERROR    | prisma_d2.cli:run_cli - Invalid schema: " ++ reason ++ "\n" := by
  have htext : (Log.Event.schemaInvalid reason).text =
      "prisma_d2.cli:run_cli" ++ " - " ++ ("Invalid schema: " ++ reason) := rfl
  have hfront : "ERROR    | " ++ "prisma_d2.cli:run_cli" ++ " - " ++ "Invalid schema: " =
      "ERROR    | prisma_d2.cli:run_cli - Invalid schema: " := by decide
  rw [text_of_error rfl, htext, ← hfront]
  simp only [String.append_assoc]

/-- **The program draws what the text says.** Let the input hold a text that does not start with two
marks. If the text can be drawn, the run ends well, with the diagram on standard output or in the
file it was asked for; if it has an error, the run fails with this error and leaves everything as
it was. -/
theorem runOn_agrees {t : String}
    (hmark : ¬ [Text.byteOrderMark, Text.byteOrderMark] <+: t.toList)
    (hdraws : inv.Draws level i o) (hholds : w.Holds input t i) :
    (∀ out, draw t = .ok out →
      (o = .standardOutput → runOn w input inv =
        (.ok { exitCode := 0, output := out,
               errors := Log.text level (traceDiagram t).events }, w)) ∧
      ∀ path w', o = .file path → hasZero path = false → w.write path out.toUTF8 = .ok w' →
        runOn w input inv =
          (.ok { exitCode := 0, output := "",
                 errors := Log.text level ((traceDiagram t).events ++ [.diagramWritten path]) },
            w') ∧
        w'.read path = .ok out.toUTF8) ∧
    ∀ e, draw t = .error e → ∃ e' : SchemaError, Schema.parse t = .error e' ∧
      runOn w input inv =
        (.ok { exitCode := 1, output := "",
               errors := Log.text level [.schemaInvalid e'.message] }, w) ∧
      (inv.logLevel = none → Log.text level [.schemaInvalid e'.message] =
        "ERROR    | prisma_d2.cli:run_cli - Invalid schema: " ++ e'.message ++ "\n") := by
  obtain ⟨s, hsource, hparse⟩ := hholds.exists_sourceOf hmark inv.inputErrors
  have htrace := traceDiagram_congr hparse
  rw [← draw_congr hparse, ← htrace]
  refine ⟨fun out hout => ⟨?_, fun path w' ho hzero hwrite => ⟨?_, Workspace.read_of_write hwrite⟩⟩,
    fun e he => ?_⟩
  · rintro rfl
    exact (Ends.shown hdraws hsource hout).eq_runOn
  · subst ho
    exact (Ends.written hdraws hsource hout hzero
      (Text.Decoded.encode?_of_standIns_eq_nil rfl out) hwrite).eq_runOn
  · obtain ⟨e', he', rfl⟩ := draw_eq_error_iff.mp he
    refine ⟨e', hparse ▸ he', ?_, fun hdefault => ?_⟩
    · have hends := (Ends.invalid hdraws hsource he).eq_runOn
      rw [events_traceDiagram_of_error he', List.nil_append] at hends
      exact hends
    · obtain rfl : defaultLevel = level := by
        simpa [hdefault, Session.threshold] using hdraws.level
      exact text_schemaInvalid _

/-- A file with a mark and line ends of three kinds, drawn into another file. -/
theorem runOn_agrees_marked :
    let w : Workspace :=
      { files := [(["in"], "\uFEFFmodel A \x7b\r  a Int\r\n\x7d\n".toUTF8)] }
    ∃ errors w', runOn w .empty { arguments := ["-o", "out", "in"] } =
        (.ok { exitCode := 0, output := "", errors }, w') ∧
      w'.read "out" = .ok "A \x7b\n\tshape: sql_table\n\ta: Int\n\x7d\n\n".toUTF8 := by
  intro w
  have hdraw : draw "\uFEFFmodel A \x7b\r  a Int\r\n\x7d\n" =
      .ok "A \x7b\n\tshape: sql_table\n\ta: Int\n\x7d\n\n" := by
    with_unfolding_all rfl
  have hdraws : Invocation.Draws { arguments := ["-o", "out", "in"] } .warning (some "in")
      (.file "out") :=
    .of_plain (i := some "in") (o := some "out") (by simp [Request.IsPlain])
      (by simp [Request.IsPlain])
  have hin : Workspace.IsPlainName "in" := ⟨by decide, by decide, by decide⟩
  have hout : Workspace.IsPlainName "out" := ⟨by decide, by decide, by decide⟩
  have hholds : w.Holds .empty "\uFEFFmodel A \x7b\r  a Int\r\n\x7d\n" (some "in") :=
    ⟨by decide, hin.read (by rfl) rfl⟩
  obtain ⟨hwritten, hread⟩ := ((runOn_agrees (by decide) hdraws hholds).1 _ hdraw).2 "out" _ rfl
    (by decide) (hout.write _ (by rfl))
  exact ⟨_, _, hwritten, hread⟩

end CommandLine
end SchemaDiagram
