import SchemaDiagram.CommandLine.Session
import SchemaDiagram.Proofs.CommandLine.Arguments
import SchemaDiagram.Proofs.Failure
import SchemaDiagram.Proofs.Text.Decoding

/-!
# How a run ends

A run on a workspace reads what is there (`Workspace.sourceOf`) before it writes anything, and it
writes once at most. So the ways it ends can be listed, each with the workspace that is left behind
(`Ends`). A run ends in one way of the list (`ends_runOn`), and it does so whenever the conditions
of that way are met (`Ends.eq_runOn`). What a run does on every input is read off the list.

In one of the ways a file is emptied and nothing is written to it (`Empties`). It takes a byte on
standard input that is not UTF-8 and yet no error (`Invocation.ReadsText.not_empties`).
-/

namespace SchemaDiagram
namespace CommandLine

open Log (Level)

/-! ## What is read -/

/-- What a run reads in a workspace. -/
def Workspace.sourceOf (w : Workspace) (errors : Text.ErrorHandler) (input : ByteArray) :
    Option String → Source
  | none => .ofText? (Text.ofStream? errors input)
  | some path =>
    if hasZero path then .broken .zeroInPath
    else match w.read path with
      | .error fault => .unavailable path fault
      | .ok bytes => .ofText? (Text.ofFile? bytes)

theorem ofText?_eq_text_iff {t : Option Text.Decoded} {text : Text.Decoded} :
    Source.ofText? t = .text text ↔ t = some text := by
  cases t <;> simp [Source.ofText?]

/-- Whatever is read as a text, no character in it stands for a byte, if standard input is UTF-8
or stray bytes are an error there. -/
theorem Workspace.standIns_of_sourceOf {w : Workspace} {errors : Text.ErrorHandler}
    {input : ByteArray} {i : Option String} {text : Text.Decoded}
    (h : w.sourceOf errors input i = .text text)
    (hinput : i = none → errors = .strict ∨ String.fromUTF8? input ≠ none) :
    text.standIns = [] := by
  cases i with
  | none =>
    have hstream := ofText?_eq_text_iff.mp h
    refine (Text.standIns_eq_nil_iff hstream).mpr ?_
    rcases hinput rfl with rfl | hbytes
    · exact Text.fromUTF8?_ne_none_of_strict hstream
    · exact hbytes
  | some path =>
    rw [sourceOf] at h
    split at h
    · exact nomatch h
    · split at h
      · exact nomatch h
      · exact Text.standIns_of_ofFile? (ofText?_eq_text_iff.mp h)

/-- The invocation asks for a diagram, with a known level of the log. -/
structure Invocation.Draws (inv : Invocation) (level : Level) (i : Option String)
    (o : Destination) : Prop where
  level : Session.threshold inv.logLevel = .ok level
  request : Request.ofArguments inv.arguments = .ok (.draw i o)

/-- Plain arguments ask for a diagram. -/
theorem Invocation.Draws.of_plain {i o : Option String} (hi : ∀ path ∈ i, Request.IsPlain path)
    (ho : ∀ path ∈ o, Request.IsPlain path) :
    Draws { arguments := Request.plainArguments i o } defaultLevel i
      (o.elim .standardOutput .file) :=
  ⟨rfl, Request.ofArguments_plainArguments hi ho⟩

/-! ## Emptying a file -/

/-- The run opens the file that it is to write to, which empties it, but a character of the diagram
stands for a byte. -/
structure Empties (w : Workspace) (input : ByteArray) (inv : Invocation) (path : String)
    (w' : Workspace) : Prop where
  isPath : hasZero path = false
  diagram : ∃ i text out, Request.ofArguments inv.arguments = .ok (.draw i (.file path)) ∧
    w.sourceOf inv.inputErrors input i = .text text ∧ draw text.text = .ok out ∧
      text.encode? out = none
  change : w.write path .empty = .ok w'

/-- If the run reads standard input, this is UTF-8, or bytes that are not are an error there. -/
def Invocation.ReadsText (inv : Invocation) (input : ByteArray) : Prop :=
  ∀ o, Request.ofArguments inv.arguments = .ok (.draw none o) →
    inv.inputErrors = .strict ∨ String.fromUTF8? input ≠ none

theorem Invocation.readsText_of_strict {inv : Invocation} (h : inv.inputErrors = .strict)
    (input : ByteArray) : inv.ReadsText input :=
  fun _ _ => .inl h

/-- Only a stray byte that was taken in makes a run empty a file. -/
theorem Invocation.ReadsText.not_empties {w w' : Workspace} {input : ByteArray} {inv : Invocation}
    {path : String} (h : inv.ReadsText input) : ¬ Empties w input inv path w' := by
  intro hempties
  obtain ⟨i, text, out, hrequest, hsource, -, hencode⟩ := hempties.diagram
  have hnone := Workspace.standIns_of_sourceOf hsource fun hi => h (.file path) (hi ▸ hrequest)
  rw [Text.Decoded.encode?_of_standIns_eq_nil hnone] at hencode
  exact nomatch hencode

/-! ## The ways a run ends -/

/-- The ways a run ends, with the workspace after it. -/
inductive Ends (w : Workspace) (input : ByteArray) (inv : Invocation) :
    Except Breakdown Outcome → Workspace → Prop
  | unknownLevel {why} (h : Session.threshold inv.logLevel = .error why) :
    Ends w input inv (.error why) w
  | misused {level e} (hlevel : Session.threshold inv.logLevel = .ok level)
      (h : Request.ofArguments inv.arguments = .error e) :
    Ends w input inv (.ok (.ofUsageError e)) w
  | help {level} (hlevel : Session.threshold inv.logLevel = .ok level)
      (h : Request.ofArguments inv.arguments = .ok .help) :
    Ends w input inv (.ok { exitCode := 0, output := helpText }) w
  | version {level} (hlevel : Session.threshold inv.logLevel = .ok level)
      (h : Request.ofArguments inv.arguments = .ok .version) :
    Ends w input inv
      (.ok { exitCode := 0, output := programName ++ " " ++ CommandLine.version ++ "\n" }) w
  | broken {level i o why} (h : inv.Draws level i o)
      (hsource : w.sourceOf inv.inputErrors input i = .broken why) :
    Ends w input inv (.error why) w
  | unavailable {level i o path fault} (h : inv.Draws level i o)
      (hsource : w.sourceOf inv.inputErrors input i = .unavailable path fault) :
    Ends w input inv (.ok (.ofEvents level 1 [.inputUnavailable path fault.message] "")) w
  | invalid {level i o text e} (h : inv.Draws level i o)
      (hsource : w.sourceOf inv.inputErrors input i = .text text)
      (hdraw : draw text.text = .error e) :
    Ends w input inv (.ok (.ofEvents level 1
      ((traceDiagram text.text).events ++ [.schemaInvalid e.message]) "")) w
  | shown {level i text out} (h : inv.Draws level i .standardOutput)
      (hsource : w.sourceOf inv.inputErrors input i = .text text)
      (hdraw : draw text.text = .ok out) :
    Ends w input inv (.ok (.ofEvents level 0 (traceDiagram text.text).events out)) w
  | unnamed {level i text out} (h : inv.Draws level i .unnamedFile)
      (hsource : w.sourceOf inv.inputErrors input i = .text text)
      (hdraw : draw text.text = .ok out) :
    Ends w input inv (.error .unnamedOutput) w
  | zeroInOutput {level i path text out} (h : inv.Draws level i (.file path))
      (hsource : w.sourceOf inv.inputErrors input i = .text text)
      (hdraw : draw text.text = .ok out) (hzero : hasZero path = true) :
    Ends w input inv (.error .zeroInPath) w
  | unwritable {level i path text out fault} (h : inv.Draws level i (.file path))
      (hsource : w.sourceOf inv.inputErrors input i = .text text)
      (hdraw : draw text.text = .ok out) (hzero : hasZero path = false)
      (hwrite : w.write path ((text.encode? out).getD .empty) = .error fault) :
    Ends w input inv (.ok (.ofEvents level 1
      ((traceDiagram text.text).events ++ [.outputUnavailable path fault.message]) "")) w
  | emptied {level path w'} (hlevel : Session.threshold inv.logLevel = .ok level)
      (h : Empties w input inv path w') :
    Ends w input inv (.error .unencodable) w'
  | written {level i path text out bytes w'} (h : inv.Draws level i (.file path))
      (hsource : w.sourceOf inv.inputErrors input i = .text text)
      (hdraw : draw text.text = .ok out) (hzero : hasZero path = false)
      (hencode : text.encode? out = some bytes) (hwrite : w.write path bytes = .ok w') :
    Ends w input inv (.ok (.ofEvents level 0
      ((traceDiagram text.text).events ++ [.diagramWritten path]) "")) w'

/-! ## The steps of a run -/

variable {w w' : Workspace} {input : ByteArray} {inv : Invocation} {level : Level}
  {i : Option String} {o : Destination} {text : Text.Decoded} {out : String}

/-- Reading leaves the workspace as it is. -/
theorem run_readSource (w : Workspace) (errors : Text.ErrorHandler) (input : ByteArray)
    (i : Option String) :
    (Session.readSource (Workspace.access input) errors i).run w =
      (w.sourceOf errors input i, w) := by
  cases i with
  | none => rfl
  | some path =>
    simp only [Session.readSource, Workspace.sourceOf]
    split
    · rfl
    · simp only [Workspace.access, StateT.run_bind, StateT.run_get, StateT.run_pure, pure_bind]
      cases w.read path <;> rfl

theorem runOn_of_draws (h : inv.Draws level i o) :
    runOn w input inv = (Session.drawSource (Workspace.access input) level o
      (w.sourceOf inv.inputErrors input i)).run w := by
  rw [runOn, Session.run, h.level]
  simp only [h.request, Session.perform, StateT.run_bind, run_readSource]
  rfl

theorem drawSource_text {m : Type → Type} [Monad m] (access : FileAccess m) (level : Level)
    (o : Destination) (text : Text.Decoded) :
    Session.drawSource access level o (.text text) =
      match draw text.text with
      | .error e => pure (.ok (.ofEvents level 1
          ((traceDiagram text.text).events ++ [.schemaInvalid e.message]) ""))
      | .ok out =>
        Session.writeDiagram access level (traceDiagram text.text).events text out o := by
  simp only [Session.drawSource, outcome_traceDiagram, draw]
  cases diagramOf text.text <;> rfl

theorem runOn_of_text (h : inv.Draws level i o)
    (hsource : w.sourceOf inv.inputErrors input i = .text text)
    (hdraw : draw text.text = .ok out) :
    runOn w input inv = (Session.writeDiagram (Workspace.access input) level
      (traceDiagram text.text).events text out o).run w := by
  rw [runOn_of_draws h, hsource, drawSource_text, hdraw]

/-- Writing a file leaves the workspace as it is just if it fails. -/
theorem run_writeFile (w : Workspace) (input : ByteArray) (path : String) (bytes : ByteArray) :
    ((Workspace.access input).writeFile path bytes).run w =
      match w.write path bytes with
      | .error fault => (.error fault, w)
      | .ok w' => (.ok (), w') := by
  simp only [Workspace.access, StateT.run_bind, StateT.run_get]
  cases h : w.write path bytes <;> simp only [pure_bind, h] <;> rfl

/-- Writing a diagram opens the file, and what comes after that depends on the encoding. -/
theorem run_writeDiagram_file {path diagram : String} (events : List Log.Event)
    (text : Text.Decoded) (hzero : hasZero path = false) :
    (Session.writeDiagram (Workspace.access input) level events text diagram (.file path)).run w =
      match w.write path ((text.encode? diagram).getD .empty) with
      | .error fault =>
        (.ok (.ofEvents level 1 (events ++ [.outputUnavailable path fault.message]) ""), w)
      | .ok w' =>
        (if (text.encode? diagram).isSome then
            .ok (.ofEvents level 0 (events ++ [.diagramWritten path]) "")
          else .error .unencodable, w') := by
  simp only [Session.writeDiagram, hzero, Bool.false_eq_true, if_false, StateT.run_bind,
    run_writeFile]
  cases w.write path ((text.encode? diagram).getD .empty) with
  | error fault => rfl
  | ok w' => cases text.encode? diagram <;> rfl

/-! ## Every run ends in one way -/

/-- **The way a run ends** is determined. -/
theorem Ends.eq_runOn {e : Except Breakdown Outcome} (h : Ends w input inv e w') :
    runOn w input inv = (e, w') := by
  cases h with
  | unknownLevel h => rw [runOn, Session.run, h]; rfl
  | misused hlevel h => rw [runOn, Session.run, hlevel]; simp only [h]; rfl
  | help hlevel h => rw [runOn, Session.run, hlevel]; simp only [h]; rfl
  | version hlevel h => rw [runOn, Session.run, hlevel]; simp only [h]; rfl
  | broken h hsource => rw [runOn_of_draws h, hsource]; rfl
  | unavailable h hsource => rw [runOn_of_draws h, hsource]; rfl
  | invalid h hsource hdraw => rw [runOn_of_draws h, hsource, drawSource_text, hdraw]; rfl
  | shown h hsource hdraw => rw [runOn_of_text h hsource hdraw]; rfl
  | unnamed h hsource hdraw => rw [runOn_of_text h hsource hdraw]; rfl
  | zeroInOutput h hsource hdraw hzero =>
    rw [runOn_of_text h hsource hdraw, Session.writeDiagram, if_pos hzero]; rfl
  | unwritable h hsource hdraw hzero hwrite =>
    rw [runOn_of_text h hsource hdraw, run_writeDiagram_file _ _ hzero, hwrite]
  | emptied hlevel h =>
    obtain ⟨i, text, out, hrequest, hsource, hdraw, hencode⟩ := h.diagram
    rw [runOn_of_text ⟨hlevel, hrequest⟩ hsource hdraw, run_writeDiagram_file _ _ h.isPath, hencode,
      Option.getD_none, h.change]
    rfl
  | written h hsource hdraw hzero hencode hwrite =>
    rw [runOn_of_text h hsource hdraw, run_writeDiagram_file _ _ hzero, hencode, Option.getD_some,
      hwrite]
    rfl

/-- A drawn diagram ends the run in one of the ways. -/
theorem exists_ends_of_drawn (h : inv.Draws level i o)
    (hsource : w.sourceOf inv.inputErrors input i = .text text)
    (hdraw : draw text.text = .ok out) : ∃ e w', Ends w input inv e w' := by
  cases o with
  | standardOutput => exact ⟨_, _, .shown h hsource hdraw⟩
  | unnamedFile => exact ⟨_, _, .unnamed h hsource hdraw⟩
  | file path =>
    cases hzero : hasZero path with
    | true => exact ⟨_, _, .zeroInOutput h hsource hdraw hzero⟩
    | false =>
      cases hwrite : w.write path ((text.encode? out).getD .empty) with
      | error fault => exact ⟨_, _, .unwritable h hsource hdraw hzero hwrite⟩
      | ok w' =>
        cases hencode : text.encode? out with
        | none =>
          rw [hencode] at hwrite
          exact ⟨_, _, .emptied h.level
            ⟨hzero, ⟨i, text, out, h.request, hsource, hdraw, hencode⟩, hwrite⟩⟩
        | some bytes =>
          rw [hencode] at hwrite
          exact ⟨_, _, .written h hsource hdraw hzero hencode hwrite⟩

theorem exists_ends_of_draws (h : inv.Draws level i o) : ∃ e w', Ends w input inv e w' := by
  cases hsource : w.sourceOf inv.inputErrors input i with
  | broken why => exact ⟨_, _, .broken h hsource⟩
  | unavailable path fault => exact ⟨_, _, .unavailable h hsource⟩
  | text text =>
    cases hdraw : draw text.text with
    | error e => exact ⟨_, _, .invalid h hsource hdraw⟩
    | ok out => exact exists_ends_of_drawn h hsource hdraw

/-- **A run ends** in one of the ways. -/
theorem ends_runOn (w : Workspace) (input : ByteArray) (inv : Invocation) :
    Ends w input inv (runOn w input inv).1 (runOn w input inv).2 := by
  suffices ∃ e w', Ends w input inv e w' by
    obtain ⟨e, w', h⟩ := this
    rwa [h.eq_runOn]
  cases hlevel : Session.threshold inv.logLevel with
  | error why => exact ⟨_, _, .unknownLevel hlevel⟩
  | ok level =>
    cases hrequest : Request.ofArguments inv.arguments with
    | error e => exact ⟨_, _, .misused hlevel hrequest⟩
    | ok request =>
      cases request with
      | help => exact ⟨_, _, .help hlevel hrequest⟩
      | version => exact ⟨_, _, .version hlevel hrequest⟩
      | draw i o => exact exists_ends_of_draws ⟨hlevel, hrequest⟩

/-! ## What is logged about a failure -/

/-- By default an error is logged, on a line of its own. -/
theorem text_of_error {e : Log.Event} (h : e.level = .error) :
    Log.text defaultLevel [e] = "ERROR    | " ++ e.text ++ "\n" := by
  have hshown : e.isShownAt defaultLevel = true := by
    rw [Log.Event.isShownAt, h]
    rfl
  have hlevel : Level.error.word ++ "".pushn ' ' (8 - Level.error.word.length) ++ " | " =
      "ERROR    | " := by decide
  rw [Log.text, List.filter_cons_of_pos hshown, List.filter_nil, List.map_singleton,
    Log.Event.line, h, hlevel, String.join_cons, String.join_nil, String.append_empty]

end CommandLine
end SchemaDiagram
