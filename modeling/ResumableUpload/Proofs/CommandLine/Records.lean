import ResumableUpload.Proofs.CommandLine.Asked
import ResumableUpload.Proofs.CommandLine.Sitting
import ResumableUpload.Proofs.Plan.Words

/-!
# The records that the program keeps

The one session that the program runs is part of a history (`history_runSession`), in which its run
has the store to itself. So of the records that were loaded the program changes none but that of the
file it uploads (`find?_runSession`), and what it saves it can load again (`tidy_runSession`). It
saves the records whenever its session has a result (`Keeps.leaves`); records that cannot be loaded
it leaves alone (`files_run_of_fault`).
-/

namespace ResumableUpload.CommandLine

open Session

/-- The times that the program is told fit into a word. -/
structure Environment.TimesFit (env : Environment) : Prop where
  start : TimeFits env.clock
  course : ∀ s now, .clock now ∈ env.course s → TimeFits now

section records

variable {env : Environment} {a : Arguments} {settings : Settings} {path : String}
  {store : Resume.Store} {target : Target} {said lines : List LogLine} {content : ByteArray}

/-! ## The session -/

/-- What brings the program to the run of its session. -/
def opening (env : Environment) (settings : Settings) (target : Target) : List Action :=
  [.addUploader settings, .start env.sessionId 0 target, .run 0]

/-- What the session of the program begins with. -/
def worldOf (env : Environment) (store : Resume.Store) : World :=
  { files := env.files, store := store, clock := env.clock }

/-- The session before its run takes the first step. -/
def opened (env : Environment) (settings : Settings) (store : Resume.Store) (target : Target) :
    History :=
  (History.start (worldOf env store)).after (opening env settings target)

/-- The actions in which the session of the program is played. -/
def Course (env : Environment) (settings : Settings) (store : Resume.Store) (target : Target)
    (said : List LogLine) : Action → Prop :=
  Plays (env.course (openSession env settings store target said))

/-- Whatever happens to the session of the program, it is part of a history in which its run has the
store to itself. -/
theorem history_runSession (env : Environment) (settings : Settings) (store : Resume.Store)
    (target : Target) (said : List LogLine) :
    ∃ as, (∀ x ∈ as, Course env settings store target said x) ∧
      (opened env settings store target).Alone as 0 ∧
      ((opened env settings store target).after as).setup? 0 = some ⟨0, target, settings, 0⟩ ∧
      (runSession env settings store target said).engine
        = ((opened env settings store target).after as).engine := by
  obtain ⟨as, has, heq⟩ := Sitting.exists_actions (List.Subset.refl _)
    (s := openSession env settings store target said) (h := opened env settings store target) rfl
  exact ⟨as, has, alone_of_plays _ has, History.setup?_after rfl as, heq⟩

theorem leavesFiles_course {as : List Action}
    (has : ∀ x ∈ as, Course env settings store target said x) :
    ∀ x ∈ opening env settings target ++ as, x.leavesFiles = true := by
  intro x hx
  rcases List.mem_append.mp hx with hx | hx
  · exact List.all_eq_true.mp rfl x hx
  · exact (has x hx).leavesFiles

theorem clockFits_course (htimes : env.TimesFit) {as : List Action}
    (has : ∀ x ∈ as, Course env settings store target said x) :
    ∀ x ∈ opening env settings target ++ as, x.ClockFits := by
  intro x hx
  rcases List.mem_append.mp hx with hx | hx
  · simp only [opening, List.mem_cons, List.not_mem_nil, or_false] at hx
    rcases hx with rfl | rfl | rfl <;> exact trivial
  · exact (has x hx).clockFits (htimes.course _)

/-- The session digests the file that the program was told to upload. -/
theorem key_course {writable : Bool}
    (hfind : env.files.find target.localPath = .ok (.file content writable))
    (hsize : content.size = target.totalSize) {as : List Action}
    (has : ∀ x ∈ as, Course env settings store target said x)
    (hs : ((opened env settings store target).after as).setup? 0 = some ⟨0, target, settings, 0⟩)
    {files : Files} {d : Digest.FileDigests}
    (hd : .digested files d ∈ ((opened env settings store target).after as).of 0) :
    Run.Setup.key ⟨0, target, settings, 0⟩ d
      = Resume.key target.remotePath (Digest.md5 content) := by
  have hunchanged : History.Unchanged (History.start (worldOf env store))
      (opening env settings target ++ as) 0 target.localPath content :=
    History.unchanged_of_leavesFiles ⟨writable, hfind⟩ (leavesFiles_course has) 0
  rw [opened, ← History.after_append] at hs hd
  exact History.key_of_unchanged _ hs hunchanged hsize hd

/-- The session changes no record but that of its file. -/
theorem find?_runSession (target : Target) {writable : Bool}
    (hfind : env.files.find target.localPath = .ok (.file content writable))
    (hsize : content.size = target.totalSize) {key : String}
    (hkey : key ≠ Resume.key target.remotePath (Digest.md5 content)) :
    (runSession env settings store target said).engine.world.store.find? key
      = store.find? key := by
  obtain ⟨as, has, halone, hs, heq⟩ := history_runSession env settings store target said
  rw [heq]
  exact halone.spares_others hs fun files d hd hown =>
    hkey (hown.symm.trans (key_course hfind hsize has hs hd))

/-- A session that ends with a commit leaves no record of its file. -/
theorem none_runSession (target : Target) {writable : Bool}
    (hfind : env.files.find target.localPath = .ok (.file content writable))
    (hsize : content.size = target.totalSize) {c : Commit}
    (hend : (runSession env settings store target said).engine.ending? 0
      = some (.result (.ok c))) :
    (runSession env settings store target said).engine.world.store.find?
      (Resume.key target.remotePath (Digest.md5 content)) = none := by
  obtain ⟨as, has, halone, hs, heq⟩ := history_runSession env settings store target said
  rw [heq] at hend ⊢
  obtain ⟨files, d, hdigested, -, hnone⟩ := halone.none_of_committed hs rfl hend
  rwa [key_course hfind hsize has hs hdigested] at hnone

theorem tidy_runSession (hstore : store.Tidy) (htotal : target.totalSize < 2 ^ 64)
    (hhint : settings.customUploadPartSize < 2 ^ 64) (htimes : env.TimesFit) :
    (runSession env settings store target said).engine.world.store.Tidy := by
  obtain ⟨as, has, halone, hs, heq⟩ := history_runSession env settings store target said
  have hfits : (⟨0, target, settings, 0⟩ : Run.Setup).Fits :=
    ⟨htotal, (Plan.partSize_cut _ _).symm ▸ Sizing.partSize_lt hhint htotal⟩
  rw [heq]
  refine halone.tidy (fun key r hsaved => ?_) hstore
  rw [opened, ← History.after_append] at hs hsaved
  exact History.saved_fits _ _ hs hfits htimes.start (clockFits_course htimes has) hsaved

/-! ## The program -/

/-- The program keeps resume records: its arguments ask for an upload, and the settings that it goes
by are sound and name a file for the records. -/
structure Keeps (env : Environment) (a : Arguments) (settings : Settings) (path : String) :
    Prop where
  asked : Wish.ofArguments env.args env.token = .upload a
  adjusted : settings = adjust a (Settings.loadOrDefault env.files a.config).settings
  sound : settings.problem? = none
  file : settings.progressFile = some path

/-- The default settings name no file for records, so the settings were loaded and no file was
written. -/
theorem Keeps.files (h : Keeps env a settings path) :
    (Settings.loadOrDefault env.files a.config).files = env.files := by
  have hfile : (Settings.loadOrDefault env.files a.config).settings.progressFile = some path := by
    rw [← h.file, h.adjusted]
    rfl
  unfold Settings.loadOrDefault at hfile ⊢
  split at hfile
  · rfl
  · split at hfile <;> cases hfile

/-- What the program has said before it makes its session, if its records were loaded. -/
def saidBefore (env : Environment) (a : Arguments) (lines : List LogLine) : List LogLine :=
  startNotice :: (Settings.loadOrDefault env.files a.config).notices ++ lines

/-- The program ends with the fault of the records, or uploads with the store that they give. -/
theorem Keeps.run_eq (h : Keeps env a settings path) :
    (∀ fault, Resume.Store.load env.files path = .error fault →
      ∃ said, run env = complain env env.files said fault.text) ∧
    ∀ store lines, Resume.Store.load env.files path = .ok (store, lines) →
      run env = upload env a settings store (saidBefore env a lines) := by
  have hrecords : loadRecords settings env.files = Resume.Store.load env.files path := by
    simp only [loadRecords, h.file]
  have hrun : run env = begin env a := by simp only [run, h.asked]
  simp only [begin, h.files, ← h.adjusted, h.sound, hrecords] at hrun
  exact ⟨fun fault hload => ⟨_, by rw [hrun, hload]⟩, fun store lines hload => by
    rw [hrun, hload]
    rfl⟩

theorem files_run_of_fault (h : Keeps env a settings path) {fault : Resume.Store.Fault}
    (hload : Resume.Store.load env.files path = .error fault) : (run env).files = env.files := by
  obtain ⟨said, hrun⟩ := h.run_eq.1 fault hload
  rw [hrun]
  rfl

theorem files_saveRecords (hfile : settings.progressFile = some path) (store : Resume.Store)
    (files : Files) : (saveRecords settings store files).1 = (store.save files path).1 := by
  simp only [saveRecords, hfile]
  split
  · next hsave => rw [hsave]
  · next hsave => rw [hsave]

theorem files_conclude (hfile : settings.progressFile = some path) (s : Sitting)
    (result : Except UploadFault Commit) :
    (conclude env settings s result).files = (s.engine.world.store.save env.files path).1 := by
  rw [← files_saveRecords hfile]
  cases result <;> rfl

theorem code_conclude (s : Sitting) (result : Except UploadFault Commit) :
    (conclude env settings s result).code = 0 ↔ ∃ c, result = .ok c := by
  cases result with
  | ok c => exact ⟨fun _ => ⟨c, rfl⟩, fun _ => rfl⟩
  | error f =>
    constructor
    · intro hcode
      cases hcode
    · rintro ⟨c, hc⟩
      cases hc

theorem finish_of_result {s : Sitting} {result : Except UploadFault Commit}
    (hend : s.engine.ending? 0 = some (.result result)) :
    finish env settings s = conclude env settings s result := by
  rw [finish, hend]

theorem files_finish_of_no_result {s : Sitting}
    (hno : ∀ result, s.engine.ending? 0 ≠ some (.result result)) :
    (finish env settings s).files = env.files := by
  unfold finish
  split
  · next result hend => exact absurd hend (hno result)
  · unfold breakOff
    split <;> rfl

theorem ofLocalFile_eq {writable : Bool} {files : Files} {localPath : String}
    (hfind : files.find localPath = .ok (.file content writable)) (remotePath token : String) :
    Target.ofLocalFile files localPath remotePath token
      = .ok ⟨localPath, remotePath, content.size, token, none⟩ := by
  simp only [Target.ofLocalFile, Files.fileSize, hfind]

/-- A file with records is written again: what it then holds has the same records but for one, and
can be loaded. -/
structure Resaved (before after : Files) (path : String) (store left : Resume.Store)
    (own : String) : Prop where
  written : after = (left.save before path).1
  others : ∀ key, key ≠ own → left.find? key = store.find? key
  loaded : (left.save before path).2 = none →
    ∃ lines, Resume.Store.load after path = .ok (left, lines)

/-- What becomes of the records when the session `s` of the program is over. -/
structure Leaves (env : Environment) (settings : Settings) (path : String) (store : Resume.Store)
    (target : Target) (own : String) (s : Sitting) : Prop where
  /-- The session is part of a history in which its run has the store to itself. -/
  history : ∃ as, (opened env settings store target).Alone as 0 ∧
    ((opened env settings store target).after as).setup? 0 = some ⟨0, target, settings, 0⟩ ∧
    s.engine = ((opened env settings store target).after as).engine
  /-- The records are saved when the session has a result, whatever it is. -/
  saved : ∀ result, s.engine.ending? 0 = some (.result result) →
    Resaved env.files (run env).files path store s.engine.world.store own ∧
      ((run env).code = 0 ↔ ∃ c, result = .ok c)
  /-- A commit leaves no record of the file. -/
  committed : ∀ c, s.engine.ending? 0 = some (.result (.ok c)) →
    s.engine.world.store.find? own = none
  /-- A program that stops before changes no file. -/
  unsaved : (∀ result, s.engine.ending? 0 ≠ some (.result result)) → (run env).files = env.files

theorem Keeps.leaves (h : Keeps env a settings path) {writable : Bool}
    (hload : Resume.Store.load env.files path = .ok (store, lines))
    (hfind : env.files.find a.file = .ok (.file content writable)) (hsize : content.size < 2 ^ 64)
    (htimes : env.TimesFit) :
    let target : Target := ⟨a.file, a.remotePath, content.size, a.accessToken, none⟩
    Leaves env settings path store target (Resume.key a.remotePath (Digest.md5 content))
      (runSession env settings store target (saidBefore env a lines)) := by
  intro target
  have hrun : run env
      = finish env settings (runSession env settings store target (saidBefore env a lines)) := by
    rw [h.run_eq.2 store lines hload, upload, ofLocalFile_eq hfind a.remotePath a.accessToken]
  have hhint : settings.customUploadPartSize < 2 ^ 64 := by
    rw [h.adjusted]
    exact partSize_adjust_lt h.asked env.files a.config
  obtain ⟨as, -, halone, hs, heq⟩ :=
    history_runSession env settings store target (saidBefore env a lines)
  refine ⟨⟨as, halone, hs, heq⟩, fun result hend => ?_, fun c hend => ?_, fun hno => ?_⟩
  · rw [finish_of_result hend] at hrun
    have hfiles := congrArg Ending.files hrun
    rw [files_conclude h.file] at hfiles
    refine ⟨⟨hfiles, fun key hkey => find?_runSession target hfind rfl hkey, fun hsave => ?_⟩, ?_⟩
    · rw [hfiles]
      refine Resume.Store.load_save ?_ (Prod.ext rfl hsave)
      exact tidy_runSession (Resume.Store.tidy_of_load hload) hsize hhint htimes
    · rw [hrun]
      exact code_conclude _ result
  · exact none_runSession target hfind rfl hend
  · rw [hrun]
    exact files_finish_of_no_result hno

end records

/-- Whatever else happens, a step of a run changes no record but that of the file the run has
digested. A run that has the store to itself leaves all others, leaves the whole store unless it
digests its file, and leaves no record of its own if it ends with a commit. A file that stays as it
is gives the run its key, and a store that was loaded, after the run, can be saved and loaded. So
the program, if its records were loaded, and whatever the server answers and whenever the program is
interrupted, writes a file with the same records but for that of the file it uploads; a file that it
could not load it leaves as it was. -/
theorem own_record_only :
    (∀ (w : World) (as : List Action) (k : Nat) (s : Run.Setup) (worker : Option Nat)
        (sig : Signal),
      let h := (History.start w).after as
      let h' := h.next (.signal ⟨k, worker⟩ sig)
      h'.setup? k = some s → ∀ key, (∀ files d, .digested files d ∈ h'.of k → s.key d ≠ key) →
        h'.engine.world.store.find? key = h.engine.world.store.find? key) ∧
    (∀ (w : World) (first rest : List Action) (k : Nat) (s : Run.Setup),
      let h := (History.start w).after first
      let h' := h.after rest
      h'.setup? k = some s → h.of k = [] → h.Alone rest k →
        h.Spares h' k s ∧
        (s.Fits → w.ClockFits → (∀ x ∈ first ++ rest, x.ClockFits) →
          ∀ before path lines,
            Resume.Store.load before path = .ok (h.engine.world.store, lines) →
            ∀ files files', h'.engine.world.store.save files path = (files', none) →
              ∃ lines, Resume.Store.load files' path = .ok (h'.engine.world.store, lines))) ∧
    (∀ (w : World) (as : List Action) (k : Nat) (s : Run.Setup) (content : ByteArray),
      let h := (History.start w).after as
      h.setup? k = some s → content.size = s.target.totalSize →
      History.Unchanged (History.start w) as k s.target.localPath content →
        ∀ files d, .digested files d ∈ h.of k →
          s.key d = Resume.key s.target.remotePath (Digest.md5 content)) ∧
    ∀ (env : Environment) (a : Arguments) (settings : Settings) (path : String),
      Keeps env a settings path →
        (∀ fault, Resume.Store.load env.files path = .error fault →
          (run env).files = env.files) ∧
        ∀ store lines content writable,
          Resume.Store.load env.files path = .ok (store, lines) →
          env.files.find a.file = .ok (.file content writable) → content.size < 2 ^ 64 →
          env.TimesFit →
          let target : Target := ⟨a.file, a.remotePath, content.size, a.accessToken, none⟩
          Leaves env settings path store target (Resume.key a.remotePath (Digest.md5 content))
            (runSession env settings store target (saidBefore env a lines)) := by
  refine ⟨?_, ?_, ?_, ?_⟩
  · intro w as k s worker sig h h' hs key hkey
    exact (History.alone_signal h k worker sig).spares_others hs hkey
  · intro w first rest k s h h' hs hbegun halone
    refine ⟨halone.spares hs hbegun, fun hfits hclock hclocks before path lines hload => ?_⟩
    exact fun files files' hsave => halone.load_save hs hfits hclock hclocks hload hsave
  · intro w as k s content h hs hsize hfile files d hd
    exact History.key_of_unchanged w hs hfile hsize hd
  · intro env a settings path hkeeps
    exact ⟨fun fault => files_run_of_fault hkeeps, fun store lines content writable =>
      hkeeps.leaves⟩

namespace Sample

/-- A record that fits no file. -/
def record : Resume.Record := ⟨"U", 1, 1, [0], ["d"], 0⟩

/-- The key of the record of the file that is uploaded. -/
def own : String := "55a54008ad1ba589aa210d2629c1df41:/f"

/-- A record of the file, and one of another file. -/
def store : Resume.Store := ⟨[("d:/g", record), (own, record)]⟩

def config : String := "[upload]\nprogress_file = \"p.json\"\n"

/-- Files with an upload, settings that name a file for records, and this file. -/
def files (records : String) : Files where
  nodes := [(["home"], .folder true), (["home", "f"], .file ⟨#[1]⟩ true),
    (["home", "app.toml"], .file config.toUTF8 true),
    (["home", "p.json"], .file records.toUTF8 true)]

/-- The server answers a task. -/
def answer (worker : Option Nat) (body : String) : Happening :=
  .outcome worker (.reply ⟨200, by decide⟩ body.toUTF8)

/-- The upload has an identifier and a host, and its one worker sends the part. -/
def sending : List Happening :=
  List.replicate 5 (.go none) ++ [answer none "\x7b\"errno\":0,\"uploadid\":\"U\"\x7d"] ++
    List.replicate 4 (.go none) ++
    [answer none "\x7b\"servers\":[\x7b\"server\":\"https://c\"\x7d]\x7d"] ++
    List.replicate 7 (.go (some 0))

/-- The part is answered, and the parts are joined. -/
def answered : List Happening :=
  sending ++ [answer (some 0) "\x7b\"md5\":\"m\"\x7d"] ++ List.replicate 3 (.go (some 0)) ++
    List.replicate 3 (.go none) ++ [answer none "\x7b\"errno\":0,\"fs_id\":7\x7d", .go none]

/-- The program is interrupted while the part is sent. -/
def interrupted : List Happening :=
  sending ++ [.interrupt] ++ List.replicate 3 (.go (some 0)) ++ List.replicate 3 (.go none)

def env (records : String) (course : List Happening) : Environment where
  files := files records
  args := ["--config", "app.toml", "--access-token", "token", "f", "/f"]
  sessionId := "s"
  course := fun _ => course

def arguments : Arguments := ⟨"f", "/f", "token", "app.toml", none, none, false⟩

def settings : Settings := { progressFile := some "p.json" }

theorem keeps (records : String) (course : List Happening) :
    Keeps (env records course) arguments settings "p.json" where
  asked := by
    show Wish.ofArguments ["--config", "app.toml", "--access-token", "token", "f", "/f"] none = _
    decide +kernel
  adjusted := by
    have hread : (files records).readText "app.toml" = .ok config := Files.readText_of_find rfl
    have htoml : Settings.ofTomlText? config = some settings := by decide +kernel
    have hload : Settings.load (files records) "app.toml" = .ok settings := by
      simp only [Settings.load, hread, htoml]
    show settings = adjust arguments (Settings.loadOrDefault (files records) "app.toml").settings
    rw [Settings.loadOrDefault, hload]
    rfl
  sound := by decide +kernel
  file := rfl

theorem load_files_fault {records : String}
    (h : (Json.read? records).bind Resume.Store.ofJson? = none) :
    Resume.Store.load (files records) "p.json" = .error .malformed := by
  have hthere : (files records).contains "p.json" = true := rfl
  have hread : (files records).readText "p.json" = .ok records := Files.readText_of_find rfl
  simp only [Resume.Store.load, hthere, if_true, hread, h]

/-- A world with one file and the record of another. -/
def world : World := { Session.Sample.world with store := store }

/-- A session is made and run. -/
def first : List Action := Session.Sample.opened.take 3

/-- The run digests its file and looks for a record of it. -/
def rest : List Action := List.replicate 4 Session.Sample.go

theorem tidy_store : store.Tidy where
  distinct := by decide
  fits e he := by
    have hrecord : e.2 = record := by
      rw [store, List.mem_cons, List.mem_singleton] at he
      rcases he with rfl | rfl <;> rfl
    rw [hrecord]
    exact ⟨by decide, by decide, by decide, by decide⟩

/-- The program is started with the records of the store. -/
def uploading (course : List Happening) : Environment := env store.toJson.pretty course

/-- The session of the program. -/
def session (course : List Happening) : Sitting :=
  runSession (uploading course) settings store ⟨"f", "/f", 1, "token", none⟩
    (saidBefore (uploading course) arguments [store.loadNotice "p.json"])

theorem load_files :
    Resume.Store.load (files store.toJson.pretty) "p.json"
      = .ok (store, [store.loadNotice "p.json"]) :=
  Resume.Store.load_of_readText tidy_store (show _ = true from rfl) (Files.readText_of_find rfl)

/-- No time is told but that at the start. -/
theorem timesFit {course : List Happening} (hcourse : course.all fun x => !(x matches .clock _)) :
    (uploading course).TimesFit where
  start := ⟨(by decide : -(2 ^ 63 : Int) ≤ 0), (by decide : (0 : Int) < 2 ^ 63)⟩
  course _ now hmem := nomatch List.all_eq_true.mp hcourse _ hmem

end Sample

/-- The record of another upload is still there after a run has looked for its own, after the
program has uploaded its file, and after it was interrupted; a file that holds no records is left as
it was. -/
theorem own_record_only_two_files :
    (((History.start Sample.world).after Sample.first).after Sample.rest).engine.world.store.find?
        "d:/g" = some Sample.record ∧
      (∃ left, Resaved (Sample.uploading Sample.answered).files
          (run (Sample.uploading Sample.answered)).files "p.json" Sample.store left Sample.own ∧
        (run (Sample.uploading Sample.answered)).code = 0 ∧
        left.find? "d:/g" = some Sample.record ∧ left.find? Sample.own = none) ∧
      (∃ left, Resaved (Sample.uploading Sample.interrupted).files
          (run (Sample.uploading Sample.interrupted)).files "p.json" Sample.store left Sample.own ∧
        (run (Sample.uploading Sample.interrupted)).code ≠ 0 ∧
        left.find? "d:/g" = some Sample.record) ∧
      (run (Sample.env "records" [])).files = Sample.files "records" := by
  obtain ⟨-, hspares, hkey, hkeeps⟩ := own_record_only
  have hown : Resume.key "/f" (Digest.md5 ⟨#[1]⟩) = Sample.own := by decide +kernel
  have hother : "d:/g" ≠ Sample.own := by decide
  have hleaves : ∀ course, (course.all fun x => !(x matches .clock _)) = true →
      Leaves (Sample.uploading course) Sample.settings "p.json" Sample.store
        ⟨"f", "/f", 1, "token", none⟩ Sample.own (Sample.session course) := by
    intro course hcourse
    rw [← hown]
    exact (hkeeps _ _ _ _ (Sample.keeps Sample.store.toJson.pretty course)).2 _ _ ⟨#[1]⟩ true
      Sample.load_files rfl (by decide) (Sample.timesFit hcourse)
  refine ⟨?_, ?_, ?_, ?_⟩
  · have hs : (((History.start Sample.world).after Sample.first).after Sample.rest).setup? 0
        = some ⟨0, Session.Sample.target, { useDynamicUploadApi := false }, 0⟩ :=
      History.setup?_after rfl Sample.rest
    have hplays : ∀ x ∈ Sample.rest, Plays [] x := fun x hx => by
      rw [List.eq_of_mem_replicate hx]
      exact .signal none .go
    have halone := alone_of_plays ((History.start Sample.world).after Sample.first) hplays
    have hothers := (hspares _ _ _ _ _ hs rfl halone).1.others "d:/g" fun files d hd => ?_
    · exact hothers.trans rfl
    · rw [← History.after_append] at hs hd
      have hunchanged : History.Unchanged (History.start Sample.world)
          (Sample.first ++ Sample.rest) 0 "f" ⟨#[1]⟩ :=
        History.unchanged_of_leavesFiles ⟨true, rfl⟩ (List.all_eq_true.mp rfl) 0
      rw [hkey _ _ _ _ ⟨#[1]⟩ hs rfl hunchanged files d hd]
      exact fun heq => hother (heq.symm.trans hown)
  · have hend : (Sample.session Sample.answered).engine.ending? 0
        = some (.result (.ok ⟨7, "/f", 1, "", false⟩)) := by decide +kernel
    have hleft := hleaves Sample.answered rfl
    obtain ⟨hresaved, hcode⟩ := hleft.saved _ hend
    exact ⟨_, hresaved, hcode.mpr ⟨_, rfl⟩, hresaved.others _ hother, hleft.committed _ hend⟩
  · have hend : (Sample.session Sample.interrupted).engine.ending? 0
        = some (.result (.error .cancelled)) := by decide +kernel
    obtain ⟨hresaved, hcode⟩ := (hleaves Sample.interrupted rfl).saved _ hend
    refine ⟨_, hresaved, fun hzero => ?_, hresaved.others _ hother⟩
    obtain ⟨c, hc⟩ := hcode.mp hzero
    cases hc
  · have hmalformed : (Json.read? "records").bind Resume.Store.ofJson? = none := by decide +kernel
    exact (hkeeps _ _ _ _ (Sample.keeps "records" [])).1 _ (Sample.load_files_fault hmalformed)

end ResumableUpload.CommandLine
