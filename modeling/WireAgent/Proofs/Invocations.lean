import WireAgent.Program
import WireAgent.Proofs.Configurations
import WireAgent.Proofs.Exchanges

/-!
# What the program does with a configuration

The configuration is looked for once, before anything else is done, and what comes of it depends on
the file only (`Config.loadResult_cases`): its values, an error of the operating system, or a fault
of its content. The program goes on from there alike for every command (`proceed_apply`). A listing
ends accordingly (`run_showConfiguration`): with the values, with a complaint, or with the fault,
which is caught nowhere.
-/

namespace WireAgent

/-- Is it a fault of the content of a file? -/
def Fault.IsOfContent (fault : Fault) : Prop :=
  fault = .undecodable ∨ ∃ n, fault = .numeral (.tooLong n)

namespace FileTree

theorem follow_ne_nullCharacter (folder : Folder) (here names : List String) :
    folder.follow here names ≠ .error .nullCharacter := by
  induction names generalizing here with
  | nil => simp [Folder.follow]
  | cons name rest ih =>
    rw [Folder.follow]
    split_ifs with hup hlong
    · exact ih _
    · simp
    · dsimp only
      split
      · simp
      · exact ih _
      · simp
      · simp

/-- Only a path with a null character is refused for one. -/
theorem contains_of_resolve {files : FileTree} {path : FilePath}
    (h : files.resolve path = .error .nullCharacter) : path.toString.contains '\x00' = true := by
  by_contra hcontains
  rw [resolve, if_neg hcontains] at h
  split_ifs at h
  · cases h
  · exact follow_ne_nullCharacter _ _ _ h

theorem contains_of_open? {files : FileTree} {path : FilePath} {e : FileError}
    (h : files.open? path = .error e) (hnumber : e.number? = none) :
    path.toString.contains '\x00' = true := by
  have hnull : e = .nullCharacter := by
    cases e <;> simp [FileError.number?] at hnumber ⊢
  subst hnull
  unfold open? at h
  rcases hfound : files.resolve path with e | ⟨names, entry⟩
  · rw [hfound] at h
    have he : (.error e : Except FileError ByteArray) = .error .nullCharacter := h
    cases he
    exact contains_of_resolve hfound
  · rw [hfound] at h
    rcases entry with _ | ⟨content⟩ | _ <;> cases h

end FileTree

namespace Config

open Action World

/-- Remarks are only logged. -/
theorem log_remarks (remarks : List String) (w : World) :
    ∃ v, (forIn remarks PUnit.unit fun remark _ => do
        Action.log .debug .config remark
        pure (ForInStep.yield PUnit.unit) : Action PUnit) w = (.ok (), v) ∧ w.Noted v := by
  induction remarks generalizing w with
  | nil => exact ⟨w, rfl, refl_of Noted w⟩
  | cons remark remarks ih =>
    obtain ⟨v, hv, hnoted⟩ := ih (log .debug .config remark w).2
    refine ⟨v, ?_, (log_noted _ _ _ w).trans hnoted⟩
    rw [List.forIn_cons]
    simpa using hv

theorem readText_apply (text : List Char) (w : World) :
    ∃ v, readText text w = ((parse text).mapError .numeral, v) ∧ w.Noted v := by
  obtain ⟨v, hv, hnoted⟩ := log_remarks (remarks text) w
  refine ⟨v, ?_, hnoted⟩
  rw [readText, bind_apply, hv]
  exact lift_apply _ _ _

/-- The configuration in a content. -/
def ofContent (content : ByteArray) : Except Fault Values :=
  match fileText? content with
  | none => .error .undecodable
  | some text => ((parse text).mapError .numeral).map Values.merged

/-- The configuration in a file. -/
def fileResult (files : FileTree) (path : FilePath) : Except Fault Values :=
  ((files.open? path).mapError (.file · path.toString)).bind ofContent

/-- The configuration in a file, or the defaults if there is none. -/
def loadResult (files : FileTree) (path : FilePath) : Except Fault Values :=
  ((files.exists? path).mapError (.file · path.toString)).bind fun found =>
    if found then fileResult files path else .ok .defaults

theorem readMerged_apply (text : List Char) (w : World) :
    ∃ v, readMerged text w = (((parse text).mapError .numeral).map Values.merged, v) ∧
      w.Noted v := by
  obtain ⟨v, hv, hnoted⟩ := readText_apply text w
  refine ⟨v, ?_, hnoted⟩
  rw [readMerged, bind_apply, hv]
  cases (parse text).mapError Fault.numeral <;> rfl

/-- Reading a file only writes records, and the file decides what comes of it. -/
theorem fromFile_apply (path : FilePath) (w : World) :
    ∃ v, fromFile path w = (fileResult w.files path, v) ∧ w.Noted v := by
  rw [fromFile, bind_apply, get_apply]
  dsimp only
  rw [bind_apply, lift_apply, fileResult]
  rcases (w.files.open? path) with e | content
  · exact ⟨w, rfl, refl_of Noted w⟩
  · simp only [Except.mapError, Except.bind, ofContent]
    cases fileText? content with
    | none => exact ⟨w, rfl, refl_of Noted w⟩
    | some text => exact readMerged_apply text w

theorem load_apply (path : FilePath) (w : World) :
    ∃ v, load path w = (loadResult w.files path, v) ∧ w.Noted v := by
  rw [load, bind_apply, get_apply]
  dsimp only
  rw [bind_apply, lift_apply, loadResult]
  rcases (w.files.exists? path) with e | found
  · exact ⟨w, rfl, refl_of Noted w⟩
  · cases found with
    | true => exact fromFile_apply path w
    | false => exact ⟨_, rfl, log_noted _ _ _ w⟩

/-- Is a content UTF-8, without too long a numeral for an option? -/
def IsReadable (content : ByteArray) : Prop :=
  ∃ text, fileText? content = some text ∧ ¬IsLongText text

/-- A content is read line by line. -/
theorem ofContent_eq {content : ByteArray} {text : List Char}
    (hcontent : fileText? content = some text) (hlong : ¬IsLongText text) :
    ofContent content = .ok (valuesIn (Text.splitLines text)) := by
  have hparse := parse_result text
  rw [if_neg hlong] at hparse
  rw [← merged_eq hparse]
  simp only [ofContent, hcontent, hparse]
  rfl

/-- A content that is not readable has a fault of its own. -/
theorem ofContent_error {content : ByteArray} (h : ¬IsReadable content) :
    ∃ fault, ofContent content = .error fault ∧ fault.IsOfContent := by
  unfold ofContent
  rcases hcontent : fileText? content with _ | text
  · exact ⟨.undecodable, rfl, .inl rfl⟩
  · have hlong : IsLongText text := by_contra fun hlong => h ⟨text, hcontent, hlong⟩
    have hparse := parse_result text
    rw [if_pos hlong] at hparse
    obtain ⟨n, hn⟩ := hparse
    refine ⟨.numeral (.tooLong n), ?_, .inr ⟨n, rfl⟩⟩
    simp only [hn]
    rfl

/-- There is no file at a path, and no lines, or one with these lines. -/
def Gives (files : FileTree) (path : FilePath) (lines : List (List Char)) : Prop :=
  files.exists? path = .ok false ∧ lines = [] ∨
    ∃ content text, files.open? path = .ok content ∧ fileText? content = some text ∧
      lines = Text.splitLines text

/-- Something stands at a path but cannot be opened. -/
def Refuses (files : FileTree) (path : FilePath) (e : FileError) : Prop :=
  files.exists? path = .error e ∨ files.exists? path = .ok true ∧ files.open? path = .error e

/-- A file that is looked for in vain, or is opened in vain where it stands, has an error that the
operating system raises. -/
theorem Refuses.exists_number {files : FileTree} {path : FilePath} {e : FileError}
    (h : Refuses files path e) : ∃ number, e.number? = some number := by
  rcases h with h | ⟨hexists, hopen⟩
  · unfold FileTree.exists? at h
    split at h
    · cases h
    · split_ifs at h with hmissing
      cases h
      cases e with
      | nullCharacter => exact absurd rfl hmissing
      | _ => exact ⟨_, rfl⟩
  · unfold FileTree.exists? at hexists
    unfold FileTree.open? at hopen
    rcases hresolve : files.resolve path with e' | ⟨names, entry⟩
    · rw [hresolve] at hexists
      dsimp only at hexists
      split_ifs at hexists
      cases hexists
    · rw [hresolve] at hopen
      rcases entry with _ | ⟨content⟩ | _
      · cases hopen
        exact ⟨_, rfl⟩
      · cases hopen
      · cases hopen
        exact ⟨_, rfl⟩

/-- What comes of loading a file. -/
theorem loadResult_cases (files : FileTree) (path : FilePath) :
    (∃ lines, Gives files path lines ∧ (∀ line ∈ lines, ¬IsLongLine line) ∧
      loadResult files path = .ok (valuesIn lines)) ∨
    (∃ e number, Refuses files path e ∧ e.number? = some number ∧
      loadResult files path = .error (.file e path.toString)) ∨
    ∃ content fault, files.open? path = .ok content ∧ ¬IsReadable content ∧
      fault.IsOfContent ∧ loadResult files path = .error fault := by
  unfold loadResult
  rcases hexists : files.exists? path with e | found
  · have hrefuses : Refuses files path e := .inl hexists
    obtain ⟨number, hnumber⟩ := hrefuses.exists_number
    exact .inr (.inl ⟨e, number, hrefuses, hnumber, rfl⟩)
  cases found with
  | false => exact .inl ⟨[], .inl ⟨hexists, rfl⟩, List.forall_mem_nil _, rfl⟩
  | true =>
    rcases hopen : files.open? path with e | content
    · have hrefuses : Refuses files path e := .inr ⟨hexists, hopen⟩
      obtain ⟨number, hnumber⟩ := hrefuses.exists_number
      refine .inr (.inl ⟨e, number, hrefuses, hnumber, ?_⟩)
      simp [fileResult, hopen, Except.mapError, Except.bind]
    · have hresult : fileResult files path = ofContent content := by
        rw [fileResult, hopen]
        rfl
      by_cases hreadable : IsReadable content
      · obtain ⟨text, hcontent, hlong⟩ := hreadable
        refine .inl ⟨Text.splitLines text, .inr ⟨content, text, hopen, hcontent, rfl⟩, ?_, ?_⟩
        · exact fun line hmem hline => hlong ⟨line, hmem, hline⟩
        · exact hresult.trans (ofContent_eq hcontent hlong)
      · obtain ⟨fault, hfault, hcause⟩ := ofContent_error hreadable
        exact .inr (.inr ⟨content, fault, rfl, hreadable, hcause, hresult.trans hfault⟩)

end Config

namespace CommandLine

theorem eq_of_guess {known : List (String × Switch)} {text value : String}
    (h : guess known text = .ok (.word value)) : value = text := by
  unfold guess at h
  split at h
  · cases h
  · cases h
  · split_ifs at h
    · cases h
      rfl
    · cases h

theorem eq_of_classify {known : List (String × Switch)} {text value : String}
    (h : classify known text = .ok (.word value)) : value = text := by
  unfold classify at h
  split at h
  · cases h
    rfl
  · split at h
    · cases h
    · split at h
      · split at h
        · cases h
        · exact eq_of_guess h
      · exact eq_of_guess h

/-- The file of a listing. -/
theorem read_listing {path : String} {i : Invocation}
    (h : read ["--conf", path, "show-configuration"] = .ok i) :
    i = ⟨some .showConfiguration, some path, none⟩ := by
  have hconf : classify Switch.spellings "--conf" = .ok (.switch .config true none) := by
    decide +kernel
  have hcommand : classifyAll Switch.spellings ["show-configuration"] =
      .ok [.word "show-configuration"] := by
    decide +kernel
  unfold read at h
  rw [classifyAll, if_neg (by decide), hconf, classifyAll] at h
  split_ifs at h with hpath
  · cases h
  · rw [hcommand] at h
    rcases hargument : classify Switch.spellings path with what | argument
    · rw [hargument] at h
      cases h
    · rw [hargument] at h
      cases argument with
      | word value =>
        obtain rfl := eq_of_classify hargument
        have hvalue : takeValue .config value {} = .ok { configFile := some value } := by
          rw [takeValue, if_neg hpath]
        simp only [Except.bind, bind, pure, Except.pure, List.zip_cons_cons, readAll, hvalue] at h
        exact (Except.ok.inj h).symm
      | _ => cases h

end CommandLine

namespace Program

theorem attempt_apply {α : Type} (action : Action α) {c : Console} (h : c.log = none) (w : World) :
    attempt action c w = ((.ok (action w).1, c), (action w).2) := by
  rw [attempt, Activity.lift_bind_apply, Action.get_apply]
  dsimp only
  rw [Activity.lift_bind_apply, Action.outcome_apply]
  dsimp only
  rw [Activity.lift_bind_apply, Action.get_apply]
  simp [showRecords, h]

/-- What is written about a configuration that cannot be read. -/
def unreadableText (name : String) (e : FileError) : String :=
  "Cannot read configuration " ++ name ++ ": " ++ e.message (FilePath.ofString name).toString
    ++ "\n"

/-- How the program goes on once the configuration has been looked for. -/
def goOn (i : CommandLine.Invocation) (settings : Settings) :
    Except Fault Config.Values → Activity Console Exit
  | .ok config => execute i settings config
  | .error (.file e path) =>
    if e.number?.isNone then throw (.file e path)
    else do
      complain ("Cannot read configuration " ++ configName i settings ++ ": " ++ e.message path
        ++ "\n")
      return ⟨1, false⟩
  | .error fault => throw fault

/-- Under valid settings the configuration decides how the program goes on. -/
theorem proceed_apply (i : CommandLine.Invocation) {environment : List (String × String)}
    {settings : Settings} (h : Settings.read environment [] = .ok settings) {c : Console}
    (hc : c.log = none) (w : World) :
    ∃ v, w.Noted v ∧ proceed i environment c w =
      goOn i settings (Config.loadResult w.files (.ofString (configName i settings))) c v := by
  obtain ⟨v, hload, hnoted⟩ := Config.load_apply (.ofString (configName i settings)) w
  refine ⟨v, hnoted, ?_⟩
  rw [proceed, h]
  dsimp only
  rw [Activity.bind_apply, attempt_apply _ hc, hload]
  dsimp only
  rcases Config.loadResult w.files (.ofString (configName i settings)) with fault | config
  · cases fault <;> rfl
  · rfl

theorem goOn_refused (i : CommandLine.Invocation) (settings : Settings) {e : FileError}
    {number : Int} (h : e.number? = some number) (c : Console) (w : World) :
    goOn i settings (.error (.file e (FilePath.ofString (configName i settings)).toString)) c w =
      ((.ok ⟨1, false⟩, { c with errors := c.errors ++ unreadableText (configName i settings) e }),
        w) := by
  rw [goOn, h]
  rfl

theorem goOn_of_isOfContent (i : CommandLine.Invocation) (settings : Settings) {fault : Fault}
    (h : fault.IsOfContent) (c : Console) (w : World) :
    goOn i settings (.error fault) c w = ((.error fault, c), w) := by
  rcases h with rfl | ⟨n, rfl⟩ <;> rfl

/-! ## Listing the configuration -/

theorem execute_showConfiguration {i : CommandLine.Invocation}
    (h : i.command = some .showConfiguration) (settings : Settings) (config : Config.Values)
    (c : Console) (w : World) :
    execute i settings config c w =
      ((.ok ⟨0, false⟩, { c with output := c.output ++ config.listing }), w) := by
  rw [execute]
  simp [h, print]

/-- How the listing of the configuration of a name ends. -/
inductive Lists (files : FileTree) (name : String) : Except Fault Exit × Console → Prop
  /-- There is no file, or one that is readable; each option is shown with its value. -/
  | shown (lines : List (List Char)) (found : Config.Gives files (.ofString name) lines)
      (readable : ∀ line ∈ lines, ¬Config.IsLongLine line) :
      Lists files name (.ok ⟨0, false⟩, { output := Config.listed lines })
  /-- The operating system refuses the file. -/
  | refused (e : FileError) (number : Int) (refused : Config.Refuses files (.ofString name) e)
      (raised : e.number? = some number) :
      Lists files name (.ok ⟨1, false⟩, { errors := unreadableText name e })
  /-- The file is not readable, and the fault is not caught. -/
  | escaped (content : ByteArray) (fault : Fault)
      (found : files.open? (.ofString name) = .ok content)
      (unreadable : ¬Config.IsReadable content) (cause : fault.IsOfContent) :
      Lists files name (.error fault, {})

/-- Asked for a listing, the program goes on to the configuration. -/
theorem run_of_read {arguments : List String} {i : CommandLine.Invocation}
    (hread : CommandLine.read arguments = .ok i) {environment : List (String × String)}
    {settings : Settings} (hsettings : Settings.read environment [] = .ok settings) (w : World) :
    ∃ v, w.Noted v ∧ run arguments environment {} w =
      goOn i settings (Config.loadResult w.files (.ofString (configName i settings))) {} v := by
  obtain ⟨v, hnoted, hproceed⟩ := proceed_apply i hsettings (rfl : ({} : Console).log = none) w
  refine ⟨v, hnoted, ?_⟩
  rw [run, hread]
  exact hproceed

/-- A listing ends with an exit just unless the file is not readable. To read the file itself gives
no other fault than those of the operating system, but for the same files. -/
theorem run_showConfiguration {path : String} {i : CommandLine.Invocation}
    (hread : CommandLine.read ["--conf", path, "show-configuration"] = .ok i)
    {environment : List (String × String)} {settings : Settings}
    (hsettings : Settings.read environment [] = .ok settings) (w : World) :
    Lists w.files (configName i settings)
        (run ["--conf", path, "show-configuration"] environment {} w).1 ∧
      ∀ file fault, (Config.fromFile file w).1 = .error fault →
        (∃ e, w.files.open? file = .error e ∧ fault = .file e file.toString ∧
          (e.number? = none → file.toString.contains '\x00' = true)) ∨
        ∃ content, w.files.open? file = .ok content ∧ ¬Config.IsReadable content ∧
          fault.IsOfContent := by
  have hcommand : i.command = some .showConfiguration := by
    rw [CommandLine.read_listing hread]
  constructor
  · obtain ⟨v, -, hrun⟩ := run_of_read hread hsettings w
    rw [hrun]
    rcases Config.loadResult_cases w.files (.ofString (configName i settings)) with
      ⟨lines, hgives, hlines, hload⟩ | ⟨e, number, hrefuses, hnumber, hload⟩ |
      ⟨content, fault, hopen, hreadable, hcause, hload⟩
    · rw [hload, goOn, execute_showConfiguration hcommand, Config.listing_valuesIn,
        String.empty_append]
      exact .shown lines hgives hlines
    · rw [hload, goOn_refused i settings hnumber, String.empty_append]
      exact .refused e number hrefuses hnumber
    · rw [hload, goOn_of_isOfContent i settings hcause]
      exact .escaped content fault hopen hreadable hcause
  · intro file fault hfault
    obtain ⟨v, hfile, -⟩ := Config.fromFile_apply file w
    rw [hfile, Config.fileResult] at hfault
    rcases hopen : w.files.open? file with e | content
    · rw [hopen] at hfault
      cases hfault
      exact .inl ⟨e, rfl, rfl, FileTree.contains_of_open? hopen⟩
    · rw [hopen] at hfault
      have hcontent : Config.ofContent content = .error fault := hfault
      have hreadable : ¬Config.IsReadable content := by
        rintro ⟨text, htext, hlong⟩
        rw [Config.ofContent_eq htext hlong] at hcontent
        cases hcontent
      obtain ⟨fault', hfault', hcause⟩ := Config.ofContent_error hreadable
      obtain rfl : fault' = fault := Except.error.inj (hfault'.symm.trans hcontent)
      exact .inr ⟨content, rfl, hreadable, hcause⟩

/-- A machine with one file. -/
def withFile (content : ByteArray) : World :=
  { World.plain [] with files := { working := [(["w"], .file content)] } }

/-- The file is found under its name. -/
theorem resolve_withFile (content : ByteArray) :
    (withFile content).files.resolve ⟨false, ["w"]⟩ = .ok (["w"], some (.file content)) := by
  have htext : FilePath.toString ⟨false, ["w"]⟩ = "w" := by decide
  rw [FileTree.resolve, htext, if_neg (by simp), if_neg (by decide)]
  rfl

/-- The file is loaded under its name. -/
theorem loadResult_withFile (content : ByteArray) :
    Config.loadResult (withFile content).files (.ofString "w") = Config.ofContent content := by
  have hsplit : "w".splitOn "/" = ["w"] := by
    rw [String.splitOn, if_neg (by decide), String.splitOnAux, String.splitOnAux]
    decide
  have hpath : FilePath.ofString "w" = ⟨false, ["w"]⟩ := by
    rw [FilePath.ofString, hsplit]
    decide +kernel
  rw [hpath, Config.loadResult, FileTree.exists?, resolve_withFile]
  simp only [Option.isSome_some, Except.mapError, Except.bind, if_true]
  rw [Config.fileResult, FileTree.open?, resolve_withFile]
  rfl

/-- The listing of a file in which the last of two lines for an option has not its form. -/
theorem run_showConfiguration_twice :
    CommandLine.read ["--conf", "w", "show-configuration"] =
        .ok ⟨some .showConfiguration, some "w", none⟩ ∧
      Settings.read [] [] = .ok {} ∧
      Lists (withFile "Logs.CollectPeriod=7\nLogs.CollectPeriod=x\n".toUTF8).files "w"
        (run ["--conf", "w", "show-configuration"] [] {}
          (withFile "Logs.CollectPeriod=7\nLogs.CollectPeriod=x\n".toUTF8)).1 := by
  have hread : CommandLine.read ["--conf", "w", "show-configuration"] =
      .ok ⟨some .showConfiguration, some "w", none⟩ := by
    decide +kernel
  have hsettings : Settings.read [] [] = .ok {} := rfl
  exact ⟨hread, hsettings, (run_showConfiguration hread hsettings _).1⟩

/-- A byte that is in no UTF-8 text ends the listing with a fault. -/
theorem run_showConfiguration_undecodable :
    (run ["--conf", "w", "show-configuration"] [] {} (withFile ⟨#[0xFF]⟩)).1.1 =
      .error .undecodable := by
  have hread : CommandLine.read ["--conf", "w", "show-configuration"] =
      .ok ⟨some .showConfiguration, some "w", none⟩ := by
    decide +kernel
  have hsettings : Settings.read [] [] = .ok {} := rfl
  have hload : Config.loadResult (withFile ⟨#[0xFF]⟩).files (.ofString "w") =
      .error .undecodable := by
    rw [loadResult_withFile]
    decide
  obtain ⟨v, -, hrun⟩ := run_of_read hread hsettings (withFile ⟨#[0xFF]⟩)
  rw [hrun]
  show (goOn _ _ (Config.loadResult _ (.ofString "w")) _ _).1.1 = _
  rw [hload]
  rfl

end Program

end WireAgent
