import ClassLoading.Proofs.CommandRuns

/-! The order of the roots of a class path. However roots are added, one by one or as the entries of
a search path, the class path is what was added, sorted by kind, with the roots of one kind in the
order in which they were added. The class path of the command follows: it lists the kinds one after
the other, each with the entries of its option or, without the option, of its variable. -/
namespace ClassLoading

/-! ### Pieces of a text -/

namespace Text

theorem notMem_of_mem_splitChars {separator : Char} {xs piece : List Char}
    (h : piece ∈ splitChars separator xs) : separator ∉ piece := by
  fun_induction splitChars separator xs generalizing piece with
  | case1 =>
    obtain rfl := List.mem_singleton.1 h
    simp
  | case2 rest ih =>
    rcases List.mem_cons.1 h with rfl | h
    · simp
    · exact ih h
  | case3 c rest hc hnil => exact absurd hnil (splitChars_ne_nil _ _)
  | case4 c rest hc first pieces hcons ih =>
    rw [hcons] at ih
    rcases List.mem_cons.1 h with rfl | h
    · have hfirst := ih (List.mem_cons_self ..)
      simp [hfirst, Ne.symm hc]
    · exact ih (List.mem_cons_of_mem _ h)

end Text

namespace ClassPath

/-- The entries of a search path are what stands between its colons, but for empty texts. -/
theorem exists_pieces (text : String) : ∃ pieces : List String,
    ":".intercalate pieces = text ∧ (∀ piece ∈ pieces, ':' ∉ piece.toList) ∧
      searchPathEntries text = pieces.filter (· ≠ "") := by
  refine ⟨Text.split ':' text, ?_, fun piece hpiece => ?_, rfl⟩
  · apply String.toList_inj.1
    rw [String.toList_intercalate]
    simpa [Text.split, Function.comp_def] using Text.intercalate_splitChars ':' text.toList
  · obtain ⟨chars, hchars, rfl⟩ := List.mem_map.1 hpiece
    simpa using Text.notMem_of_mem_splitChars hchars

/-! ### Sorting by kind -/

section

variable {classPath other : ClassPath} {added : List Root}

/-- The class path has the roots that were added, in the order of their kinds, and those of one kind
in the order in which they were added. -/
structure Sorts (classPath : ClassPath) (added : List Root) : Prop where
  ordered : classPath.roots.Pairwise fun a b => a.kind.rank ≤ b.kind.rank
  stable : ∀ kind, classPath.roots.filter (·.kind = kind) = added.filter (·.kind = kind)

theorem filter_eq_nil_of_later {roots : List Root} {kind : RootKind}
    (h : ∀ root ∈ roots, kind.rank < root.kind.rank) : roots.filter (·.kind = kind) = [] := by
  rw [List.filter_eq_nil_iff]
  intro root hroot hkind
  have hlt := h root hroot
  rw [of_decide_eq_true hkind] at hlt
  exact Nat.lt_irrefl _ hlt

/-- Roots in the order of their kinds are made up of the roots of each kind. -/
theorem flatMap_filter_of_ordered {roots : List Root}
    (h : roots.Pairwise fun a b => a.kind.rank ≤ b.kind.rank) :
    (RootKind.all.flatMap fun kind => roots.filter (·.kind = kind)) = roots := by
  induction roots with
  | nil => rfl
  | cons root rest ih =>
    obtain ⟨hroot, hrest⟩ := List.pairwise_cons.1 h
    have hearlier : ∀ kind : RootKind, kind.rank < root.kind.rank →
        rest.filter (·.kind = kind) = [] := fun kind hlt =>
      filter_eq_nil_of_later fun r hr => Nat.lt_of_lt_of_le hlt (hroot r hr)
    have ih := ih hrest
    simp only [RootKind.all, List.flatMap_cons, List.flatMap_nil, List.append_nil] at ih ⊢
    cases hkind : root.kind with
    | bootstrap => simpa [hkind] using ih
    | extension =>
      have hboot := hearlier .bootstrap (by simp [hkind, RootKind.rank])
      simpa [hkind, hboot] using ih
    | user =>
      have hboot := hearlier .bootstrap (by simp [hkind, RootKind.rank])
      have hextension := hearlier .extension (by simp [hkind, RootKind.rank])
      simpa [hkind, hboot, hextension] using ih

theorem Sorts.roots_eq (h : classPath.Sorts added) :
    classPath.roots = RootKind.all.flatMap fun kind => added.filter (·.kind = kind) := by
  rw [← flatMap_filter_of_ordered h.ordered]
  simp only [h.stable]

/-- Two class paths that sort the same roots are equal. -/
theorem Sorts.unique (h : classPath.Sorts added) (h' : other.Sorts added) : classPath = other := by
  cases classPath
  cases other
  exact congrArg ClassPath.mk (h.roots_eq.trans h'.roots_eq.symm)

/-- Whether a root is of no later kind than another. -/
def noLater (a b : Root) : Bool := decide (a.kind.rank ≤ b.kind.rank)

theorem sorts_mergeSort (added : List Root) : Sorts ⟨added.mergeSort noLater⟩ added := by
  have htrans : ∀ a b c : Root, noLater a b → noLater b c → noLater a c := by
    simp only [noLater, decide_eq_true_eq]
    exact fun a b c => Nat.le_trans
  have htotal : ∀ a b : Root, noLater a b || noLater b a := by
    simp only [noLater, Bool.or_eq_true, decide_eq_true_eq]
    exact fun a b => Nat.le_total _ _
  refine ⟨?_, fun kind => ?_⟩
  · simpa [noLater] using List.pairwise_mergeSort htrans htotal added
  · -- the roots of one kind are a sorted part of the list, which the sort leaves in its order
    have hkind : (added.filter (·.kind = kind)).Pairwise fun a b => noLater a b := by
      refine List.pairwise_iff_forall_sublist.2 fun {a b} hab => ?_
      have ha := List.of_mem_filter (hab.mem (a := a) (by simp))
      have hb := List.of_mem_filter (hab.mem (a := b) (by simp))
      simp_all [noLater]
    have hsublist := (List.sublist_mergeSort htrans htotal hkind List.filter_sublist).filter
      (fun root => decide (root.kind = kind))
    have hperm := (List.mergeSort_perm added noLater).filter fun root => decide (root.kind = kind)
    rw [List.filter_filter] at hsublist
    simp only [Bool.and_self] at hsublist
    exact (hsublist.eq_of_length hperm.length_eq.symm).symm

theorem Sorts.eq_mergeSort (h : classPath.Sorts added) :
    classPath.roots = added.mergeSort noLater :=
  congrArg ClassPath.roots (h.unique (sorts_mergeSort added))

/-! ### Adding roots -/

theorem filter_push (h : classPath.roots.Pairwise fun a b => a.kind.rank ≤ b.kind.rank)
    (kind : RootKind) (path : String) (k : RootKind) :
    (classPath.push kind path).roots.filter (·.kind = k) =
      (classPath.roots ++ [Root.mk kind path]).filter (·.kind = k) := by
  obtain ⟨roots⟩ := classPath
  dsimp only [push] at h ⊢
  induction roots with
  | nil => rfl
  | cons root roots ih =>
    obtain ⟨hroot, hroots⟩ := List.pairwise_cons.1 h
    by_cases hbefore : root.kind.rank ≤ kind.rank
    · rw [List.takeWhile_cons_of_pos (by simpa using hbefore),
        List.dropWhile_cons_of_pos (by simpa using hbefore), List.cons_append, List.cons_append,
        List.filter_cons, List.filter_cons, ih hroots]
    · rw [List.takeWhile_cons_of_neg (by simpa using hbefore),
        List.dropWhile_cons_of_neg (by simpa using hbefore), List.nil_append, List.filter_append,
        List.filter_cons]
      split
      · next hkind =>
        -- all that stands behind the new root is of a later kind
        obtain rfl : kind = k := of_decide_eq_true hkind
        have hroot' : kind.rank < root.kind.rank := Nat.lt_of_not_le hbefore
        have hlater : (root :: roots).filter (·.kind = kind) = [] :=
          filter_eq_nil_of_later (List.forall_mem_cons.2
            ⟨hroot', fun r hr => Nat.lt_of_lt_of_le hroot' (hroot r hr)⟩)
        simp [hlater]
      · next hkind => simp [hkind]

theorem sorts_empty : empty.Sorts [] := ⟨.nil, fun _ => rfl⟩

theorem Sorts.push (h : classPath.Sorts added) (kind : RootKind) (path : String) :
    (classPath.push kind path).Sorts (added ++ [⟨kind, path⟩]) where
  ordered := pairwise_push h.ordered kind path
  stable k := by rw [filter_push h.ordered, List.filter_append, List.filter_append, h.stable]

theorem Sorts.foldl_push (h : classPath.Sorts added) (kind : RootKind) (paths : List String) :
    (paths.foldl (·.push kind ·) classPath).Sorts (added ++ paths.map (Root.mk kind)) := by
  induction paths generalizing classPath added with
  | nil => simpa using h
  | cons path paths ih => simpa using ih (h.push kind path)

theorem Sorts.pushSearchPath (h : classPath.Sorts added) (kind : RootKind) (text : String) :
    (classPath.pushSearchPath kind text).Sorts
      (added ++ (searchPathEntries text).map (Root.mk kind)) := h.foldl_push kind _

/-- One of the ways in which a class path grows: by a root, or by the entries of a search path. A
class path is a value, so it is all one whether a root is added in place or to a copy. -/
inductive Addition where
  | root (kind : RootKind) (path : String)
  | searchPath (kind : RootKind) (text : String)

def Addition.apply (classPath : ClassPath) : Addition → ClassPath
  | .root kind path => classPath.push kind path
  | .searchPath kind text => classPath.pushSearchPath kind text

/-- What an addition adds, in order. -/
def Addition.roots : Addition → List Root
  | .root kind path => [⟨kind, path⟩]
  | .searchPath kind text => (searchPathEntries text).map (Root.mk kind)

theorem Sorts.apply (h : classPath.Sorts added) (addition : Addition) :
    (addition.apply classPath).Sorts (added ++ addition.roots) := by
  cases addition with
  | root kind path => exact h.push kind path
  | searchPath kind text => exact h.pushSearchPath kind text

theorem Sorts.foldl_apply (h : classPath.Sorts added) (additions : List Addition) :
    (additions.foldl Addition.apply classPath).Sorts
      (added ++ additions.flatMap Addition.roots) := by
  induction additions generalizing classPath added with
  | nil => simpa using h
  | cons addition rest ih => simpa using ih (h.apply addition)

/-- The class path that additions make from nothing. -/
def ofAdditions (additions : List Addition) : ClassPath := additions.foldl Addition.apply empty

theorem sorts_ofAdditions (additions : List Addition) :
    (ofAdditions additions).Sorts (additions.flatMap Addition.roots) :=
  sorts_empty.foldl_apply additions

example : (ofAdditions [.root .user "u", .searchPath .bootstrap "a::b", .root .extension "x",
    .searchPath .user "u:", .root .bootstrap "c"]).roots =
    [⟨.bootstrap, "a"⟩, ⟨.bootstrap, "b"⟩, ⟨.bootstrap, "c"⟩, ⟨.extension, "x"⟩, ⟨.user, "u"⟩,
      ⟨.user, "u"⟩] := by decide

/-! ### Kind by kind -/

/-- The class path that lists the entries of one kind after those of the other. -/
def ofEntries (entries : RootKind → List String) : ClassPath :=
  ⟨RootKind.all.flatMap fun kind => (entries kind).map (Root.mk kind)⟩

theorem filter_ofEntries (entries : RootKind → List String) (kind : RootKind) :
    (ofEntries entries).roots.filter (·.kind = kind) = (entries kind).map (Root.mk kind) := by
  cases kind <;> simp [ofEntries, RootKind.all, List.filter_map, Function.comp_def]

theorem Sorts.eq_ofEntries {entries : RootKind → List String}
    (h : classPath.Sorts (ofEntries entries).roots) : classPath = ofEntries entries := by
  obtain ⟨roots⟩ := classPath
  have hroots := h.roots_eq
  simp only [filter_ofEntries] at hroots
  exact congrArg ClassPath.mk hroots

/-- A class path that is built in one step for each kind, which adds the entries of the kind. -/
theorem foldl_all_eq_ofEntries {step : ClassPath → RootKind → ClassPath}
    {entries : RootKind → List String}
    (hstep : ∀ {classPath added} kind, Sorts classPath added →
      (step classPath kind).Sorts (added ++ (entries kind).map (Root.mk kind))) :
    RootKind.all.foldl step empty = ofEntries entries := by
  refine Sorts.eq_ofEntries ?_
  have hall := hstep .user (hstep .extension (hstep .bootstrap sorts_empty))
  simpa [RootKind.all, ofEntries] using hall

/-- The entries that the environment gives for a kind. -/
def variableEntries (settings : Variables) (kind : RootKind) : List String :=
  (settings.lookup kind.variableName).elim [] searchPathEntries

theorem ofVariables_eq (settings : Variables) :
    ofVariables settings = ofEntries (variableEntries settings) := by
  refine foldl_all_eq_ofEntries fun {classPath added} kind h => ?_
  unfold variableEntries
  split
  · next text htext => simpa [htext] using h.pushSearchPath kind text
  · next hnone => simpa [hnone] using h

theorem paths_ofVariables (settings : Variables) (kind : RootKind) :
    ((ofVariables settings).roots.filter (·.kind = kind)).map (·.path) =
      variableEntries settings kind := by
  rw [ofVariables_eq, filter_ofEntries, List.map_map]
  exact List.map_id _

/-- The entries of a kind: those of its own search path, if there is one, and else those that the
environment gives. -/
def entriesOf (given : RootKind → Option String) (settings : Variables) (kind : RootKind) :
    List String :=
  (given kind).elim (variableEntries settings kind) searchPathEntries

theorem ofSearchPaths_eq (given : RootKind → Option String) (settings : Variables) :
    ofSearchPaths given settings = ofEntries (entriesOf given settings) := by
  refine foldl_all_eq_ofEntries fun {classPath added} kind h => ?_
  unfold entriesOf
  split
  · next text htext => simpa [htext] using h.pushSearchPath kind text
  · next hnone =>
    have hpush := h.foldl_push kind (variableEntries settings kind)
    rw [← paths_ofVariables settings kind, List.foldl_map, paths_ofVariables] at hpush
    simpa [hnone] using hpush

end

end ClassPath

/-! ### Search paths as arguments -/

namespace CommandLine

/-- The argument that gives a kind its search path. -/
def searchPathFlag (kind : RootKind) (text : String) : String :=
  "--" ++ searchPathOption kind ++ "=" ++ text

theorem ofText_searchPathFlag (kind : RootKind) (text : String) :
    Argument.ofText (searchPathFlag kind text) = .searchPath kind (some text) := by
  have hchars : (searchPathFlag kind text).toList =
      '-' :: '-' :: (searchPathOption kind).toList ++ '=' :: text.toList := by
    simp [searchPathFlag]
  unfold Argument.ofText
  rw [hchars]
  cases kind <;> simp [searchPathOption, longOption, RootKind.all]

/-- The arguments that give search paths to those kinds which have one. -/
def searchPathFlags (given : RootKind → Option String) (kinds : List RootKind) : List String :=
  kinds.filterMap fun kind => (given kind).map (searchPathFlag kind)

theorem Options.exists_sets_searchPathFlags (options : Options)
    (given : RootKind → Option String) (kinds : List RootKind) (hdistinct : kinds.Nodup)
    (hfree : ∀ kind ∈ kinds, options.searchPaths.lookup kind = none) :
    ∃ final, options.Sets (searchPathFlags given kinds) final ∧
      ∀ kind, final.searchPaths.lookup kind =
        if kind ∈ kinds then given kind else options.searchPaths.lookup kind := by
  induction kinds generalizing options with
  | nil => exact ⟨options, .done options, by simp⟩
  | cons first rest ih =>
    obtain ⟨hfirst, hrest⟩ := List.nodup_cons.1 hdistinct
    obtain ⟨hnone, hfree⟩ := List.forall_mem_cons.1 hfree
    cases hgiven : given first with
    | none =>
      obtain ⟨final, hsets, hlookup⟩ := ih options hrest hfree
      refine ⟨final, by simpa [searchPathFlags, hgiven] using hsets, fun kind => ?_⟩
      rw [hlookup kind]
      by_cases hkind : kind = first
      · simp [hkind, hfirst, hnone, hgiven]
      · simp [hkind]
    | some text =>
      let next : Options := { options with searchPaths := options.searchPaths ++ [(first, text)] }
      have hset : options.setSearchPath first text = .ok next := by
        simp [setSearchPath, hnone, next]
      have hnext (kind : RootKind) : next.searchPaths.lookup kind =
          if kind = first then some text else options.searchPaths.lookup kind := by
        by_cases hkind : kind = first
        · simp [next, List.lookup_append, hkind, hnone]
        · have hb : (kind == first) = false := by simpa using hkind
          simp [next, List.lookup_append, hkind, List.lookup_cons, hb]
      obtain ⟨final, hsets, hlookup⟩ := ih next hrest fun kind hkind => by
        have hne : kind ≠ first := by
          rintro rfl
          exact hfirst hkind
        rw [hnext, if_neg hne, hfree kind hkind]
      refine ⟨final, ?_, fun kind => ?_⟩
      · simpa [searchPathFlags, hgiven] using
          Sets.attached (ofText_searchPathFlag first text) hset hsets
      · rw [hlookup kind, hnext kind]
        by_cases hkind : kind = first
        · simp [hkind, hfirst, hgiven]
        · simp [hkind]

/-- Every choice of search paths can be made on the command line, whatever classes it names. -/
theorem exists_parse_searchPathFlags (given : RootKind → Option String) {names : List String}
    (hnames : names ≠ []) :
    ∃ options, parse (searchPathFlags given RootKind.all ++ "--" :: names) = .ok (.load options) ∧
      options.classes = names ∧ ∀ kind, options.searchPaths.lookup kind = given kind := by
  obtain ⟨options, hsets, hlookup⟩ := Options.initial.exists_sets_searchPathFlags given
    RootKind.all (by decide) fun _ _ => rfl
  have hclasses : options.classes = [] := hsets.classes_eq
  have hend : Argument.ofText "--" = .endOfOptions := by decide
  refine ⟨options.addClasses names, ?_, by simp [Options.addClasses, hclasses], fun kind => ?_⟩
  · rw [parse, hsets.read_append, Options.read, hend]
    simp [Options.finish, Options.addClasses, hclasses, hnames]
  · have hall : kind ∈ RootKind.all := by cases kind <;> decide
    simpa [Options.addClasses, hall] using hlookup kind

end CommandLine

/-! ### The order of the roots -/

namespace ClassPath

/-- A class path that additions make is the stable sort by kind of what they add, where a search
path adds the texts between its colons that are not empty. The class path of a command lists the
kinds in order, each with the entries of the search path it was given or else with those of its
variable, so that without any it is the class path of the environment; and each choice of search
paths is one that arguments can make. -/
theorem roots_sorted_stably :
    (∀ additions : List Addition,
      (ofAdditions additions).Sorts (additions.flatMap Addition.roots) ∧
      (ofAdditions additions).roots.Perm (additions.flatMap Addition.roots) ∧
      (ofAdditions additions).roots = (additions.flatMap Addition.roots).mergeSort noLater) ∧
    (∀ text, ∃ pieces : List String, ":".intercalate pieces = text ∧
      (∀ piece ∈ pieces, ':' ∉ piece.toList) ∧
      searchPathEntries text = pieces.filter (· ≠ "")) ∧
    ∀ settings : Variables,
      ofVariables settings = ofEntries (variableEntries settings) ∧
      (∀ options : CommandLine.Options,
        options.classPath settings =
          ofEntries (entriesOf (options.searchPaths.lookup ·) settings) ∧
        ((∀ kind, options.searchPaths.lookup kind = none) →
          options.classPath settings = ofVariables settings)) ∧
      ∀ (given : RootKind → Option String) (names : List String), names ≠ [] →
        ∃ options, CommandLine.parse
            (CommandLine.searchPathFlags given RootKind.all ++ "--" :: names) =
              .ok (.load options) ∧
          options.classes = names ∧
          options.classPath settings = ofEntries (entriesOf given settings) := by
  refine ⟨fun additions => ?_, exists_pieces, fun settings => ⟨ofVariables_eq settings,
    fun options => ⟨ofSearchPaths_eq _ settings, fun hnone => ?_⟩, fun given names hnames => ?_⟩⟩
  · have hsorts := sorts_ofAdditions additions
    refine ⟨hsorts, ?_, hsorts.eq_mergeSort⟩
    rw [hsorts.eq_mergeSort]
    exact List.mergeSort_perm _ _
  · have hentries :
        entriesOf (options.searchPaths.lookup ·) settings = variableEntries settings := by
      funext kind
      simp [entriesOf, hnone]
    rw [ofVariables_eq, ← hentries]
    exact ofSearchPaths_eq _ settings
  · obtain ⟨options, hparse, hclasses, hlookup⟩ :=
      CommandLine.exists_parse_searchPathFlags given hnames
    refine ⟨options, hparse, hclasses, ?_⟩
    rw [← funext hlookup]
    exact ofSearchPaths_eq _ settings

/-- What is set for the three kinds of roots in an environment. -/
def mixedSettings : Variables :=
  [("CLASSPATH", ":app:"), ("JVM_EXTDIRS", "ext"), ("JVM_BOOTCLASSPATH", "rt:more")]

/-- The search path of the command takes the place of one variable, and without it the three
variables hold, though the environment lists them the other way round. -/
theorem mixedSettings_sorted :
    (∃ options, CommandLine.parse ["--extdirs=x::y", "--", "demo/A"] = .ok (.load options) ∧
      options.classPath mixedSettings = ⟨[⟨.bootstrap, "rt"⟩, ⟨.bootstrap, "more"⟩,
        ⟨.extension, "x"⟩, ⟨.extension, "y"⟩, ⟨.user, "app"⟩]⟩) ∧
    (⟨[], false, ["demo/A"]⟩ : CommandLine.Options).classPath mixedSettings =
      ofVariables mixedSettings ∧
    ofVariables mixedSettings = ⟨[⟨.bootstrap, "rt"⟩, ⟨.bootstrap, "more"⟩, ⟨.extension, "ext"⟩,
      ⟨.user, "app"⟩]⟩ := by
  obtain ⟨-, -, hsettings⟩ := roots_sorted_stably
  obtain ⟨hvariables, hoptions, hflags⟩ := hsettings mixedSettings
  let given (kind : RootKind) : Option String := if kind = .extension then some "x::y" else none
  obtain ⟨options, hparse, -, hclassPath⟩ := hflags given ["demo/A"] (by decide)
  have hnone := (hoptions ⟨[], false, ["demo/A"]⟩).2 fun _ => rfl
  exact ⟨⟨options, hparse, hclassPath⟩, hnone, hvariables⟩

end ClassPath

end ClassLoading
