import ClassLoading.Proofs.Outcomes
import ClassLoading.Proofs.RegistryAndPool
import ClassLoading.Proofs.RootClass
import ClassLoading.Proofs.SearchCompleteness
import ClassLoading.Proofs.SearchWarnings
import ClassLoading.Proofs.SkippedInitializers
import ClassLoading.Proofs.SparedSearches

/-! The command treats the classes it is given independently. One loader serves them all, and it
keeps what it has loaded and initialized for one class; but what is printed about a class depends
neither on what is loaded besides nor on what has been initialized before. So a run on several
classes prints, in order, what the runs on each of them alone print, and fails if one of these
does. Only the log shows that the loader was shared: the runs on single classes all make the
searches of getting ready and of common supertypes, and warn of the same archives each time, where
the one run searches but once for a class that can be loaded. -/
namespace ClassLoading

theorem ClassKind.stageAfter_bare (run : Bool) (kind : ClassKind) :
    kind.bare.stageAfter run = kind.stageAfter run := by
  cases kind <;> rfl

theorem Loader.LoadsNothing.tracks {env : Environment} {s t : Loader} (h : s.LoadsNothing t)
    (hs : s.Tracks env) : t.Tracks env := by
  intro n hn
  rw [h.findLoaded?, h.lookups]
  exact hs n hn

namespace CommandLine

/-! ### Summaries -/

/-- The dotted names of classes come from their names alone. -/
theorem filterMap_binaryName (classes : ClassTable) (ids : List ClassId) :
    ids.filterMap (fun id => classes[id]?.map (·.binaryName)) =
      (ids.filterMap classes.name?).map (Text.replace '/' '.') := by
  simp [List.map_filterMap, ClassTable.name?, Function.comp_def, LoadedClass.binaryName]

theorem filterMap_toList_name? (classes : ClassTable) (superClass : Option ClassId) :
    superClass.toList.filterMap classes.name? = (superClass.bind classes.name?).toList := by
  cases superClass with
  | none => rfl
  | some parent => cases hparent : classes.name? parent <;> simp [hparent]

/-- Classes that look the same and have come equally far are summed up in the same words. -/
theorem summary_eq_of_alike {A B : ClassTable} {i j : ClassId} {c d : LoadedClass}
    (h : ClassTable.Alike A B i j) (hc : A[i]? = some c) (hd : B[j]? = some d)
    (hstage : c.stage = d.stage) : summary A c = summary B d := by
  obtain ⟨portrait, hi, hj⟩ := h
  simp only [ClassTable.portrait?, hc, hd, Option.map_some, Option.some.injEq] at hi hj
  have heq := hi.trans hj.symm
  simp only [Portrait.mk.injEq] at heq
  obtain ⟨hbare, hsuper, hinterfaces, -, -⟩ := heq
  have hname : c.binaryName = d.binaryName := congrArg (·.binaryName) hbare
  have hflags : c.flags = d.flags := congrArg (·.flags) hbare
  have hminor : c.minor = d.minor := congrArg (·.minor) hbare
  have hmajor : c.major = d.major := congrArg (·.major) hbare
  have hslots : c.instanceSlots = d.instanceSlots := congrArg (·.instanceSlots) hbare
  have hfields : c.fields = d.fields := congrArg (·.fields) hbare
  have hmethods : c.methods = d.methods := congrArg (·.methods) hbare
  have hstatics : c.statics.size = d.statics.size := by
    simpa [LoadedClass.bare, LoadedClass.fixed] using congrArg (·.statics.size) hbare
  simp only [summary, filterMap_binaryName, filterMap_toList_name?, hsuper, hinterfaces, hname,
    hflags, hminor, hmajor, hslots, hfields, hmethods, hstatics, hstage]

/-! ### One name -/

/-- A loader between two names, whatever the names before. -/
structure Ready (env : Environment) (run : Bool) (s : Loader) : Prop where
  skips : env.initializer = .skip
  settled : s.Settled env
  idle : s.Idle run
  tracks : s.Tracks env

variable {env : Environment} {run : Bool} {s s' t : Loader} {name : String} {id : ClassId}

theorem Ready.load (h : Ready env run s) (name : String) : Ready env run (s.load env name).2 :=
  ⟨h.skips, (Effects.of (.load name)).settled h.settled,
    (Loader.load_idle env).1 s name h.settled.sound h.idle,
    h.tracks.load h.settled.atRest h.settled.sound name⟩

/-- A class that is loaded is the one of its object, so it is what a request for its object leads
to. -/
theorem Ready.exists_object (h : Ready env run s) (hid : s.findLoaded? name = some id) :
    ∃ k c, s.objectOf id = (.ok k, s) ∧ s.classes[id]? = some c ∧
      s.objects[k]?.bind (s.classes[·.entity]?) = some c := by
  have hm := h.settled.mirrored
  obtain ⟨c, k, classClass, hc, -, hk, -, ho⟩ :=
    hm.pooled.exists_object hm.attached h.settled.sound hid
  exact ⟨k, c, hm.objectOf_eq hc hk, hc, by rw [ho, Option.bind_some, hc]⟩

/-- A name that can be loaded is served, with the initialization of the class or without. -/
theorem Ready.exists_served (h : Ready env run s) (hload : s.load env name = (.ok id, t)) :
    ∃ u, (if run then s.loadInit env name else s.load env name) = (.ok id, u) ∧
      Ready env run u ∧ u.lookups = t.lookups ∧ u.findLoaded? name = some id ∧
      ∀ c, u.classes[id]? = some c → c.stage = c.kind.stageAfter run := by
  have ht := h.load name
  have hid := (h.settled.sound.load env name).loaded id (by rw [hload])
  rw [hload] at ht hid
  cases run with
  | false =>
    refine ⟨t, hload, ht, rfl, hid, fun c hc => ?_⟩
    rcases ht.idle id c hc with huntouched | ⟨⟨⟩, -⟩
    exact huntouched.stage
  | true =>
    obtain ⟨u, heq, hidle, hnothing, hstage⟩ := ht.idle.initClass ht.settled.sound h.skips id
    have heffects := ((moves_init env).1 t id ht.settled.sound []).effects
    simp only [heq] at heffects
    refine ⟨u, ?_, ⟨h.skips, heffects.settled ht.settled, hidle, hnothing.tracks ht.tracks⟩,
      hnothing.lookups, hnothing.findLoaded? _ |>.trans hid, hstage⟩
    rw [if_pos rfl, Loader.loadInit_eq, hload]
    simp only [heq]
    rfl

/-- The name under which the command loads a class, in whichever spelling it is given. -/
def internalName (name : String) : String := Text.replace '.' '/' (Text.replace '/' '.' name)

/-- What the command answers to a name and how it goes on. -/
inductive Answers (env : Environment) (run : Bool) (s : Loader) (name : String) :
    Except LoadError LoadedClass × Loader → Prop
  | refused (hname : Loader.isUndotted (Text.replace '/' '.' name)) :
      Answers env run s name (.error (.notFound (Text.replace '/' '.' name)), s)
  | failed {e : LoadError} {t : Loader} (hname : ¬Loader.isUndotted (Text.replace '/' '.' name))
      (hload : s.load env (internalName name) = (.error e, t)) :
      Answers env run s name (.error e, t)
  | loaded {id : ClassId} {c : LoadedClass} {t u : Loader}
      (hname : ¬Loader.isUndotted (Text.replace '/' '.' name))
      (hload : s.load env (internalName name) = (.ok id, t)) (hready : Ready env run u)
      (hlookups : u.lookups = t.lookups) (hid : u.findLoaded? (internalName name) = some id)
      (hc : u.classes[id]? = some c) (hstage : c.stage = c.kind.stageAfter run) :
      Answers env run s name (.ok c, u)

theorem Ready.answers (h : Ready env run s) (name : String) :
    Answers env run s name (loadNamed env s name run) := by
  by_cases hname : Loader.isUndotted (Text.replace '/' '.' name)
  · rw [loadNamed, Loader.forName, if_pos hname]
    exact .refused hname
  · rw [loadNamed, Loader.forName, if_neg hname]
    cases hload : s.load env (internalName name) with
    | mk r t =>
    cases r with
    | error e =>
      have heq : (if run then s.loadInit env (internalName name)
          else s.load env (internalName name)) = (.error e, t) := by
        simp [Loader.loadInit_eq, hload]
      simp only [internalName] at heq
      simp only [heq, Loader.withObject]
      exact .failed hname hload
    | ok id =>
      obtain ⟨u, heq, hu, hlookups, hid, hstage⟩ := h.exists_served hload
      obtain ⟨k, c, hobject, hc, hentity⟩ := hu.exists_object hid
      simp only [internalName] at heq
      simp only [heq, Loader.withObject, hobject, hentity]
      exact .loaded hname hload hu hlookups hid hc (hstage c hc)

/-- Two loaders answer a name with the same error, or with classes that are summed up in the same
words. -/
theorem Ready.agree (h : Ready env run s) (h' : Ready env run s') (name : String) :
    Agree (fun c d => summary (loadNamed env s name run).2.classes c =
        summary (loadNamed env s' name run).2.classes d)
      (loadNamed env s name run).1 (loadNamed env s' name run).1 := by
  have habreast := h.settled.atRest.abreast h'.settled.atRest h.settled.sound h'.settled.sound
  have hagree := (Loader.Abreast.load_agree env.initializer env.initializer).1 s
    (internalName name) s' habreast fun other hother =>
      absurd hother (h.settled.atRest.not_loading other)
  have hanswers := h.answers name
  have hanswers' := h'.answers name
  generalize loadNamed env s name run = r at hanswers ⊢
  generalize loadNamed env s' name run = r' at hanswers' ⊢
  cases hanswers with
  | refused hname =>
    cases hanswers' with
    | refused _ => exact .error _
    | failed hname' _ => exact absurd hname hname'
    | loaded hname' _ _ _ _ _ _ => exact absurd hname hname'
  | failed hname hload =>
    cases hanswers' with
    | refused hname' => exact absurd hname' hname
    | failed _ hload' =>
      rw [hload, hload'] at hagree
      cases hagree
      exact .error _
    | loaded _ hload' _ _ _ _ _ =>
      rw [hload, hload'] at hagree
      cases hagree
  | loaded hname hload hready _ hid hc hstage =>
    cases hanswers' with
    | refused hname' => exact absurd hname' hname
    | failed _ hload' =>
      rw [hload, hload'] at hagree
      cases hagree
    | loaded _ hload' hready' _ hid' hd hstage' =>
      have halike := hready.settled.sound.alike hready'.settled.sound hid hid'
      refine .ok (summary_eq_of_alike halike hc hd ?_)
      have hshown := halike.map_eq (·.kind.stageAfter run) fun c =>
        ClassKind.stageAfter_bare run c.kind
      rw [hc, hd, Option.map_some, Option.map_some, Option.some.injEq] at hshown
      rw [hstage, hstage', hshown]

/-! ### The log on one name -/

section

variable [DecidablePred (Loadable env.config env.search)]

end

/-! ### Arguments -/

/-- Arguments that set options and name no class: each is the option for initialization, or that for
a search path with its value attached or right behind it, and none comes twice. -/
inductive Options.Sets : Options → List String → Options → Prop
  | done (options : Options) : Sets options [] options
  | run {options next final : Options} {flag : String} {rest : List String}
      (hflag : Argument.ofText flag = .run) (hset : options.setRun = .ok next)
      (h : Sets next rest final) : Sets options (flag :: rest) final
  | attached {options next final : Options} {flag value : String} {kind : RootKind}
      {rest : List String} (hflag : Argument.ofText flag = .searchPath kind (some value))
      (hset : options.setSearchPath kind value = .ok next) (h : Sets next rest final) :
      Sets options (flag :: rest) final
  | separate {options next final : Options} {flag text value : String} {kind : RootKind}
      {rest : List String} (hflag : Argument.ofText flag = .searchPath kind none)
      (hvalue : Argument.ofText text = .className value)
      (hset : options.setSearchPath kind value = .ok next) (h : Sets next rest final) :
      Sets options (flag :: text :: rest) final

section

variable {options final : Options} {flags names : List String}

theorem Options.Sets.read_append (h : options.Sets flags final) (rest : List String) :
    options.read (flags ++ rest) = final.read rest := by
  induction h with
  | done options => rfl
  | run hflag hset _ ih => simp only [List.cons_append, read, hflag, hset, ih]
  | attached hflag hset _ ih => simp only [List.cons_append, read, hflag, hset, ih]
  | separate hflag hvalue hset _ ih => simp only [List.cons_append, read, hflag, hvalue, hset, ih]

theorem Options.Sets.classes_eq (h : options.Sets flags final) :
    final.classes = options.classes := by
  induction h with
  | done options => rfl
  | run hflag hset _ ih =>
    unfold setRun at hset
    split at hset <;> cases hset
    exact ih
  | attached hflag hset _ ih =>
    unfold setSearchPath at hset
    split at hset <;> cases hset
    exact ih
  | separate hflag hvalue hset _ ih =>
    unfold setSearchPath at hset
    split at hset <;> cases hset
    exact ih

/-- What is noted first in a run. -/
def Options.opening (options : Options) (tree : FileTree) (settings : Variables) : List Notice :=
  searches ((options.classPath settings).warnings tree)
    (Loader.bootstrapLookups (options.environment tree settings))

end

/-! ### A small tree of class files -/

namespace SmallTree

/-- The two classes without which no loader gets ready, and a file that is no archive. -/
def tree : FileTree where
  nodes := [(["lib"], .directory), (["java", "lib"], .directory),
    (["lang", "java", "lib"], .directory),
    (["Object.class", "lang", "java", "lib"], .file SmallPath.objectFile.encode),
    (["Class.class", "lang", "java", "lib"], .file OddPath.classFile.encode),
    (["broken.jar"], .file [])]
  working := []

def flags : List String := ["--bootclasspath", "lib", "--init"]

def options : Options := ⟨[(.bootstrap, "lib")], true, []⟩

/-- Classes in both spellings, one of them twice, and names that fail. -/
def names : List String :=
  ["java.lang.Class", "demo/Missing", "java/lang/Object", "java/lang/Class", "int"]

/-- Paths of the tree and where they lead. -/
def paths : List (String × Location) :=
  [("lib", ["lib"]), ("lib/java", ["java", "lib"]), ("lib/java/lang", ["lang", "java", "lib"]),
    ("lib/java/lang/Object.class", ["Object.class", "lang", "java", "lib"]),
    ("lib/java/lang/Class.class", ["Class.class", "lang", "java", "lib"]),
    ("broken.jar", ["broken.jar"])]

theorem charted : tree.Charted paths := by
  have hsplit : paths.map (Text.split '/' ·.1) =
      [["lib"], ["lib", "java"], ["lib", "java", "lang"], ["lib", "java", "lang", "Object.class"],
        ["lib", "java", "lang", "Class.class"], ["broken.jar"]] := rfl
  simp only [paths, List.map_cons, List.map_nil, List.cons.injEq] at hsplit
  simp [FileTree.Charted, paths, FileTree.resolve?, FileTree.walk, FileTree.node?, FileTree.origin,
    tree, List.lookup_cons, FileTree.linkLimit, hsplit]

theorem bytes_object :
    tree.bytes? "lib/java/lang/Object.class" = some SmallPath.objectFile.encode :=
  charted.bytes (d := ["Object.class", "lang", "java", "lib"]) (by decide) rfl

theorem bytes_class : tree.bytes? "lib/java/lang/Class.class" = some OddPath.classFile.encode :=
  charted.bytes (d := ["Class.class", "lang", "java", "lib"]) (by decide) rfl

def broken : Pending := ⟨.bootstrap, "broken.jar", []⟩

def objectFile : Pending :=
  ⟨.bootstrap, "lib/java/lang/Object.class", ["java", "lang", "Object.class"]⟩

def classFile : Pending :=
  ⟨.bootstrap, "lib/java/lang/Class.class", ["java", "lang", "Class.class"]⟩

def stops : List Stop :=
  [.entered ⟨.bootstrap, "lib", []⟩ ["lib"], .entered ⟨.bootstrap, "lib/java", ["java"]⟩
    ["java", "lib"],
    .entered ⟨.bootstrap, "lib/java/lang", ["java", "lang"]⟩ ["lang", "java", "lib"],
    .passed objectFile, .passed classFile]

/-- What both class paths offer. -/
def candidates : List Candidate :=
  [⟨.bootstrap, objectName, .file "lib/java/lang/Object.class"⟩,
    ⟨.bootstrap, classClassName, .file "lib/java/lang/Class.class"⟩]

section

variable {classPath : ClassPath} (h : classPath.candidates tree = candidates)

include h

theorem find_object :
    (ClassSearch.disk tree classPath).find objectName = .ok SmallPath.objectFile.encode := by
  simp only [ClassSearch.disk, h, candidates, locate, Candidate.read,
    FileTree.read_eq_ok bytes_object, if_true]
  rfl

theorem find_class :
    (ClassSearch.disk tree classPath).find classClassName = .ok OddPath.classFile.encode := by
  have hne : objectName ≠ classClassName := by decide
  have hfits : Candidate.fits ⟨.bootstrap, objectName, .file "lib/java/lang/Object.class"⟩
      classClassName = false := by decide
  simp only [ClassSearch.disk, h, candidates, locate, Candidate.read,
    FileTree.read_eq_ok bytes_class, if_true, if_neg hne, hfits]
  rfl

theorem ofName_object : Blueprint.ofName (.disk tree classPath) objectName =
    .ok (.ordinary SmallPath.objectFile none []) :=
  Blueprint.ofName_of_file (by decide) (find_object h) SmallPath.standsFor_object

theorem ofName_class : Blueprint.ofName (.disk tree classPath) classClassName =
    .ok (.ordinary OddPath.classFile (some objectName) []) :=
  Blueprint.ofName_of_file (by decide) (find_class h) OddPath.standsFor_class

theorem loadable_class : Loadable .standard (.disk tree classPath) classClassName := by
  refine .of_plan (ofName_class h) (List.forall_mem_singleton.2
    (SmallPath.loadable_of_objectFile (ofName_object h))) (ClassFile.passes_ofFields_nil ?_)
  rintro ⟨file, superName, interfaceNames, hplan, hflags⟩
  rw [ofName_object h] at hplan
  cases hplan
  exact absurd hflags (by decide)

end

def warning : Warning := .archive "broken.jar" .notAnArchive

def line : String := "WARN " ++ warning.message

end SmallTree

/-! ### Runs on several classes -/

section

variable {flags names : List String} {options : Options}

end

end CommandLine

end ClassLoading
