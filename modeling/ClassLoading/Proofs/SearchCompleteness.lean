import Mathlib.Order.Basic
import ClassLoading.Proofs.SearchOrder

/-! When the search of a class path finds a class. A directory is entered once, by the way that
comes up first, and the names on that way are what its class files are called. So a class file that
stands where a root has the package of its class can be missed: its directory may have been entered
under other names. It is not missed if every way to the directory from the first root that reaches
it, entering no directory twice, spells the package, or ends in it while the file declares the
class. -/
namespace ClassLoading

namespace Text

/-- Text behind the last separator goes to the last piece. -/
theorem splitChars_append (separator : Char) (xs : List Char) : ∃ front last,
    splitChars separator xs = front ++ [last] ∧
      ∀ ys, separator ∉ ys → splitChars separator (xs ++ ys) = front ++ [last ++ ys] := by
  fun_induction splitChars separator xs with
  | case1 => exact ⟨[], [], rfl, fun ys hys => splitChars_eq_singleton hys⟩
  | case2 rest ih =>
    obtain ⟨front, last, hsplit, happend⟩ := ih
    refine ⟨[] :: front, last, by rw [hsplit]; rfl, fun ys hys => ?_⟩
    simp [splitChars, happend ys hys]
  | case3 c rest hc hnil => exact absurd hnil (splitChars_ne_nil _ _)
  | case4 c rest hc piece pieces hcons ih =>
    obtain ⟨front, last, hsplit, happend⟩ := ih
    rw [hcons] at hsplit
    cases front with
    | nil =>
      obtain ⟨rfl, rfl⟩ := List.cons.inj hsplit
      refine ⟨[], c :: piece, rfl, fun ys hys => ?_⟩
      simp [splitChars, hc, happend ys hys]
    | cons first front =>
      obtain ⟨rfl, rfl⟩ := List.cons.inj hsplit
      refine ⟨(c :: piece) :: front, last, rfl, fun ys hys => ?_⟩
      simp [splitChars, hc, happend ys hys]

end Text

namespace Path

/-- The names of the directories that a class's file is below. -/
def package (name : String) : List String := (Text.split '/' name).dropLast

/-- The last part of a class's name. -/
def simpleName (name : String) : String :=
  (Text.split '/' name).getLast (Text.split_ne_nil '/' name)

theorem package_append_simpleName (name : String) :
    package name ++ [simpleName name] = Text.split '/' name := List.dropLast_append_getLast _

theorem split_append_class (name : String) :
    Text.split '/' (name ++ ".class") = package name ++ [simpleName name ++ ".class"] := by
  obtain ⟨front, last, hsplit, happend⟩ := Text.splitChars_append '/' name.toList
  have hname : Text.split '/' name = front.map String.ofList ++ [String.ofList last] := by
    rw [Text.split, hsplit]
    simp
  have hpackage : package name = front.map String.ofList := by simp [package, hname]
  have hsimple : simpleName name = String.ofList last := by simp [simpleName, hname]
  rw [hpackage, hsimple, Text.split, String.toList_append, happend _ (by decide)]
  simp

theorem toList_logicalName {names : List String} {stem : String} (h : stem ≠ ".") :
    (logicalName names stem).toList = ['/'].intercalate ((names ++ [stem]).map String.toList) := by
  rw [logicalName, if_neg fun hdot => h hdot.1, String.toList_intercalate]
  rfl

theorem toList_eq_intercalate (name : String) :
    name.toList = ['/'].intercalate ((package name ++ [simpleName name]).map String.toList) := by
  rw [package_append_simpleName, Text.split, List.map_map]
  simp [Function.comp_def, Text.intercalate_splitChars]

/-- A class file below the package's directories alone has the class's name. -/
theorem logicalName_package {name : String} (h : simpleName name ≠ ".") :
    logicalName (package name) (simpleName name) = name := by
  rw [← String.toList_inj, toList_logicalName h, ← toList_eq_intercalate]

/-- A class file below more directories has a name that ends in the class's name. -/
theorem suffix_logicalName {name : String} {names : List String} (h : simpleName name ≠ ".")
    (hsuffix : package name <:+ names) (hne : names ≠ package name) :
    ('/' :: name.toList) <:+ (logicalName names (simpleName name)).toList := by
  obtain ⟨more, rfl⟩ := hsuffix
  have hmore : more.map String.toList ≠ [] := by
    rintro hnil
    simp_all
  have hmap : (more ++ (package name ++ [simpleName name])).map String.toList =
      more.map String.toList ++ (package name ++ [simpleName name]).map String.toList :=
    List.map_append
  rw [toList_logicalName h, toList_eq_intercalate name, List.append_assoc, hmap,
    Text.intercalate_append _ hmore (by simp)]
  simp

theorem splitExtension_append_class {stem : String} (h : stem ≠ "") :
    splitExtension (stem ++ ".class") = (stem, some "class") := by
  have hne : stem.toList.reverse ≠ [] := by simpa using h
  have hreverse : (stem ++ ".class").toList.reverse =
      's' :: 's' :: 'a' :: 'l' :: 'c' :: '.' :: stem.toList.reverse := by simp
  unfold splitExtension
  rw [hreverse]
  cases hstem : stem.toList.reverse with
  | nil => exact absurd hstem hne
  | cons c cs =>
    have hback : (c :: cs).reverse = stem.toList := by rw [← hstem, List.reverse_reverse]
    change (String.ofList (c :: cs).reverse, some "class") = _
    rw [hback, String.ofList_toList]

theorem IsName.append_class {name : String} (h : IsName name) : IsName (name ++ ".class") := by
  have hlength : 6 ≤ (name ++ ".class").length := by
    rw [String.length_append]
    exact Nat.le_add_left 6 _
  refine ⟨fun heq => ?_, fun heq => ?_, fun heq => ?_, ?_⟩
  iterate 3
    rw [heq] at hlength
    exact absurd hlength (by decide)
  · rw [String.toList_append, List.mem_append]
    exact fun hslash => hslash.elim h.noSlash (by decide)

theorem head?_ne_slash {name : String} (h : ∀ part ∈ Text.split '/' name, IsName part) :
    name.toList.head? ≠ some '/' := by
  intro hhead
  obtain ⟨rest, hrest⟩ := List.head?_eq_some_iff.1 hhead
  have hempty : "" ∈ Text.split '/' name := by simp [Text.split, hrest, Text.splitChars]
  exact (h "" hempty).ne_empty rfl

end Path

/-! ### Ways to a directory -/

namespace FileTree

/-- A way through the entries of directories that enters no directory twice: the names of the
entries, and the directories with the last one first. -/
inductive Route (tree : FileTree) (start : Location) : List String → List Location → Prop
  | here : Route tree start [] [start]
  | enter {names : List String} {d d' : Location} {trail : List Location} {name : String}
      (way : Route tree start names (d :: trail)) (entry : name ∈ tree.entries d)
      (leads : tree.Leads d [name] d') (isDirectory : tree.node? d' = some .directory)
      (new : d' ∉ d :: trail) : Route tree start (names ++ [name]) (d' :: d :: trail)

variable {tree : FileTree} {start d e : Location} {name : String} {names : List String}
  {trail : List Location}

theorem Route.start_mem (h : tree.Route start names trail) : start ∈ trail := by
  induction h with
  | here => exact List.mem_cons_self
  | enter _ _ _ _ _ ih => exact List.mem_cons_of_mem _ ih

theorem Route.isDirectory (h : tree.Route start names (d :: trail))
    (hstart : tree.node? start = some .directory) : tree.node? d = some .directory := by
  cases h with
  | here => exact hstart
  | enter _ _ _ hd _ => exact hd

theorem mem_entries_of_leads (hname : Path.IsName name) (h : tree.Leads d [name] e) :
    name ∈ tree.entries d := by
  have h₁ : ¬(name = "" ∨ name = ".") := not_or.2 ⟨hname.ne_empty, hname.ne_dot⟩
  obtain ⟨links, h⟩ := h
  cases hnode : tree.node? (name :: d) with
  | none =>
    rw [walk_missing h₁ hname.ne_dots hnode] at h
    cases h
  | some node => exact mem_entries.2 ⟨node, mem_nodes_of_node? hnode⟩

/-- A file below directories is an entry of a directory that can be reached through the entries on
the way to it. -/
theorem exists_directory_of_leads (hw : tree.WellFormed)
    (hstart : tree.node? start = some .directory) (hnames : ∀ part ∈ names, Path.IsName part)
    (h : tree.Leads start (names ++ [name]) e) :
    ∃ d, tree.Leads start names d ∧ Relation.ReflTransGen tree.Opens start d ∧
      tree.Leads d [name] e := by
  induction names generalizing start with
  | nil => exact ⟨start, leads_nil.2 rfl, .refl, h⟩
  | cons part names ih =>
    obtain ⟨hpart, hnames⟩ := List.forall_mem_cons.1 hnames
    obtain ⟨d', hleads, hnode, hrest⟩ := exists_leads_of_append hw hstart (by simp)
      (show tree.Leads start ([part] ++ (names ++ [name])) e from h)
    obtain ⟨d, hd, hopens, hfile⟩ := ih hnode hnames hrest
    refine ⟨d, (leads_append hleads hnode).2 hd, ?_, hfile⟩
    exact .head ⟨part, mem_entries_of_leads hpart hleads, hleads, hnode⟩ hopens

end FileTree

/-- A directory is entered by a way that enters no directory twice. -/
theorem Walk.exists_route {tree : FileTree} {visited : List Location} {root : Root}
    {stops : List Stop} (hw : tree.WellFormed) (h : Walk tree visited [.ofRoot root] stops)
    {p : Pending} {d : Location} (he : (p, d) ∈ Stop.entries stops) :
    ∃ start trail, tree.PathLeads root.path start ∧ tree.Route start p.names (d :: trail) := by
  obtain ⟨visited, hroute, hentered⟩ := forall_stops
    (P := fun visited p => ∀ d, tree.directory? p.path = some d → d ∉ visited →
      ∃ start trail, tree.PathLeads root.path start ∧ tree.Route start p.names (d :: trail) ∧
        trail ⊆ visited)
    (fun visited d' p hp d hd hv => by
      obtain ⟨start, trail, hstart, hway, hsub⟩ := hp d hd (List.not_mem_of_not_mem_cons hv)
      exact ⟨start, trail, hstart, hway, fun _ hl => List.mem_cons_of_mem _ (hsub hl)⟩)
    (fun visited p d name hp hd hv hname d' hd' hv' => by
      obtain ⟨start, trail, hstart, hway, hsub⟩ := hp d hd hv
      obtain ⟨hpath, hnode⟩ := FileTree.pathLeads_of_directory? hd'
      have hleads := (FileTree.pathLeads_child hd (hw.isName hname)).1 hpath
      exact ⟨start, d :: trail, hstart,
        .enter hway hname hleads hnode fun hmem => hv' (List.cons_subset_cons d hsub hmem),
        List.cons_subset_cons d hsub⟩)
    h (List.forall_mem_singleton.2 fun d hd _ =>
      ⟨d, [], (FileTree.pathLeads_of_directory? hd).1, .here, List.nil_subset _⟩)
    _ (Stop.mem_entries.1 he)
  obtain ⟨hd, hv⟩ := hentered p d rfl
  obtain ⟨start, trail, hstart, hway, -⟩ := hroute d hd hv
  exact ⟨start, trail, hstart, hway⟩

/-! ### Class files that are not missed -/

section

variable {tree : FileTree} {classPath : ClassPath} {root : Root} {p : Pending} {d e : Location}
  {bytes : List UInt8}

/-- A class file in a directory that is entered is offered, and can be read. -/
theorem exists_candidate {stem : String} (hd : tree.directory? p.path = some d)
    (hstem : Path.IsName stem) (ha : tree.Answers (p.child (stem ++ ".class")).path)
    (hleads : tree.Leads d [stem ++ ".class"] e) (hnode : tree.node? e = some (.file bytes)) :
    ∃ kind path, ⟨kind, Path.logicalName p.names stem, .file path⟩ ∈
        (p.child (stem ++ ".class")).candidates tree ∧ tree.read path = .ok bytes := by
  have hextension := Path.splitExtension_append_class hstem.ne_empty
  have hoffers := offers_candidates hd hstem.append_class ha
  generalize (p.child (stem ++ ".class")).candidates tree = candidates at hoffers
  cases hoffers with
  | classFile hleads' hnode' hclass hbytes =>
    cases hextension.symm.trans hclass
    cases hleads.unique hleads'
    cases hnode.symm.trans hnode'
    exact ⟨_, _, List.mem_singleton_self _, FileTree.read_eq_ok hbytes⟩
  | archive _ _ hjar _ => simp [hextension] at hjar
  | other hother => exact absurd (by rw [hextension]) (hother e bytes hleads hnode).1

theorem exists_first_reaching {roots : List Root} (h : ∃ r ∈ roots, tree.Reaches r.path d) :
    ∃ i root, roots[i]? = some root ∧ tree.Reaches root.path d ∧
      ∀ r ∈ roots.take i, ¬tree.Reaches r.path d := by
  induction roots with
  | nil => simp at h
  | cons root roots ih =>
    by_cases hroot : tree.Reaches root.path d
    · exact ⟨0, root, rfl, hroot, by simp⟩
    · obtain ⟨r, hr, hreaches⟩ := h
      have hrest : ∃ r ∈ roots, tree.Reaches r.path d := by
        refine ⟨r, Or.resolve_left (List.mem_cons.1 hr) ?_, hreaches⟩
        rintro rfl
        exact hroot hreaches
      obtain ⟨i, first, hfirst, hreaches, hearlier⟩ := ih hrest
      exact ⟨i + 1, first, hfirst, hreaches, List.forall_mem_cons.2 ⟨hroot, hearlier⟩⟩

/-- A directory that some root reaches is entered on a way from the first root that does, and all
that its entries offer is among the candidates. -/
theorem exists_entered (hw : tree.WellFormed) (ha : classPath.Answered tree)
    (h : ∃ r ∈ classPath.roots, tree.Reaches r.path d) :
    ∃ i root start, ∃ p : Pending, ∃ trail, classPath.roots[i]? = some root ∧
      (∀ r ∈ classPath.roots.take i, ¬tree.Reaches r.path d) ∧ tree.PathLeads root.path start ∧
      tree.Route start p.names (d :: trail) ∧ tree.directory? p.path = some d ∧
      ∀ name ∈ tree.entries d, tree.Answers (p.child name).path ∧
        (p.child name).candidates tree ⊆ classPath.candidates tree := by
  obtain ⟨i, root, hroot, hreaches, hearlier⟩ := exists_first_reaching h
  obtain ⟨stops, hwalk⟩ := Walk.exists_of tree [] (classPath.roots.map .ofRoot)
  have hanswers := ha stops hwalk
  have hcandidates : classPath.candidates tree = _ := hwalk.classPath_candidates
  obtain ⟨tours, rfl, hlength, htours⟩ := Walk.exists_tours hw _ [] hwalk hanswers (by simp)
  have hi : i < tours.length := hlength ▸ (List.getElem?_eq_some_iff.1 hroot).1
  obtain ⟨tour, htour⟩ : ∃ tour, tours[i]? = some tour := ⟨_, List.getElem?_eq_getElem hi⟩
  have hmem : ∀ stop ∈ tour, stop ∈ tours.flatten := fun stop hstop =>
    List.mem_flatten.2 ⟨tour, List.mem_of_getElem? htour, hstop⟩
  obtain ⟨visited, hvisited, hturn⟩ := htours i root tour hroot htour
  have hentered : d ∈ Stop.locations tour := by
    rw [Walk.mem_locations_iff hw [root] hturn (fun stop hstop => hanswers stop (hmem stop hstop))
      (FileTree.closed_of_reaches hvisited), hvisited]
    exact ⟨⟨root, List.mem_cons_self, hreaches⟩, by simpa using hearlier⟩
  obtain ⟨p, hp⟩ := Stop.mem_locations.1 hentered
  obtain ⟨start, trail, hstart, hroute⟩ := hturn.exists_route hw hp
  refine ⟨i, root, start, p, trail, hroot, hearlier, hstart, hroute,
    hturn.directory?_of_mem_entries _ hp, fun name hname => ?_⟩
  obtain ⟨stop, hstop, hchild⟩ := hturn.exists_stop_child hp hname
  rw [← hchild, ← hturn.candidates_eq stop hstop, hcandidates]
  exact ⟨hanswers stop (hmem stop hstop), fun c hc => List.mem_flatMap.2 ⟨_, hmem stop hstop, hc⟩⟩

/-- From the first root that reaches a directory, every way to it that enters no directory twice has
the names of a package, or ends in them where the class is declared. -/
def ClassPath.Spells (classPath : ClassPath) (tree : FileTree) (d : Location)
    (package : List String) (declared : Prop) : Prop :=
  ∀ i root start names trail, classPath.roots[i]? = some root →
    (∀ r ∈ classPath.roots.take i, ¬tree.Reaches r.path d) → tree.PathLeads root.path start →
      tree.Route start names (d :: trail) → names = package ∨ package <:+ names ∧ declared

end

/-! ### Class files among links -/

namespace LinkedTree

/-- The user root alone. -/
def outer : List Root := [⟨.user, "."⟩]

def outerStops : List Stop :=
  [.entered ⟨.user, ".", []⟩ [], .entered ⟨.user, "./demo", ["demo"]⟩ ["demo"],
    .passed ⟨.user, "./demo/A.class", ["demo", "A.class"]⟩,
    .again ⟨.user, "./demo/up", ["demo", "up"]⟩ [], .again ⟨.user, "./a", ["a"]⟩ []]

theorem walk_outer : Walk tree [] ((ClassPath.ofRoots outer).roots.map .ofRoot) outerStops := by
  refine .enter (directory (by decide) (by decide)) (by decide) ?_
  refine .enter (directory (by decide) (by decide)) (by decide) ?_
  refine .pass (notDirectory (d := ["A.class", "demo"]) (by decide) (by decide)) ?_
  refine .again (directory (by decide) (by decide)) (by decide) ?_
  exact .again (directory (by decide) (by decide)) (by decide) .done

theorem bytes {path : String} {e : Location} {contents : List UInt8} (h : (path, e) ∈ paths)
    (he : tree.node? e = some (.file contents)) : tree.bytes? path = some contents :=
  resolve?_eq.bytes h he

/-- No link leads into the directory, so it has but one name. -/
theorem spells_demo (declared : Prop) :
    (ClassPath.ofRoots outer).Spells tree ["demo"] ["demo"] declared := by
  rintro i root start names trail hroot - hstart hroute
  obtain rfl : root = ⟨.user, "."⟩ := List.mem_singleton.1 (List.mem_of_getElem? hroot)
  cases hstart.unique (FileTree.pathLeads_of_resolve? (resolve?_eq (".", []) (by decide)))
  cases hroute with
  | @enter _ d _ _ name hway hentry hleads _ hnew =>
    have hd : d ∈ tree.directories := FileTree.mem_directories (hway.isDirectory rfl)
    have hplaces : tree.directories = [[], ["demo"]] := rfl
    rw [hplaces, List.mem_pair] at hd
    rcases hd with rfl | rfl
    · cases hway with
      | enter hback _ _ _ hagain => exact absurd hback.start_mem hagain
      | here =>
        have hentries : tree.entries [] = ["demo", "a"] := rfl
        rw [hentries, List.mem_pair] at hentry
        rcases hentry with rfl | rfl
        · exact .inl rfl
        · have hlink := (FileTree.pathLeads_of_resolve? (resolve?_eq ("./a", []) (by decide))).2
          cases hleads.unique ((FileTree.leads_stay (.inr rfl)).1 hlink)
    · exact absurd List.mem_cons_self hnew

theorem candidates_nested : (ClassPath.ofRoots nested).candidates tree =
    [⟨.bootstrap, "A", .file "demo/A.class"⟩] := by
  have hcandidates : (ClassPath.ofRoots nested).candidates tree = _ :=
    walk_nested.classPath_candidates
  have hbytes : tree.bytes? "demo/A.class" = some [202, 254] :=
    bytes (e := ["A.class", "demo"]) (by decide) (by decide)
  have hextension : Path.splitExtension "A.class" = ("A", some "class") := rfl
  rw [hcandidates]
  simp [nestedStops, Stop.candidates, Pending.candidates, hbytes, hextension, Path.logicalName]

end LinkedTree

/-! ### What the search finds -/

/-- A class file that a root has at the place of a class is not missed if its directory has no other
names from the first root that reaches it. -/
theorem locate_ne_notFound_of_spells {tree : FileTree} (hw : tree.WellFormed) {classPath : ClassPath}
    (ha : classPath.Answered tree) {root : Root} (hroot : root ∈ classPath.roots) {start : Location}
    (hstart : tree.directory? root.path = some start) {name : String}
    (hname : ∀ part ∈ Text.split '/' name, Path.IsName part)
    {bytes : List UInt8} (hfile : tree.bytes? (Path.join root.path (name ++ ".class")) = some bytes)
    {d : Location} (hd : tree.Leads start (Path.package name) d)
    (hspells : classPath.Spells tree d (Path.package name) (declares bytes name = true))
    (other : String) : locate tree name (classPath.candidates tree) ≠ .error (.notFound other) := by
  obtain ⟨hpath, hnode⟩ := FileTree.pathLeads_of_directory? hstart
  have hparts := hname
  rw [← Path.package_append_simpleName, List.forall_mem_append, List.forall_mem_singleton] at hparts
  obtain ⟨hpackage, hsimple⟩ := hparts
  -- the directory of the package, which the root reaches
  obtain ⟨e, hresolve, hbytes⟩ := FileTree.bytes?_eq_some_iff.1 hfile
  have hhead : (name ++ ".class").toList.head? ≠ some '/' := by
    have hslash := Path.head?_ne_slash hname
    rw [String.toList_append, List.head?_append]
    cases hfirst : name.toList.head? with
    | none => decide
    | some c => rwa [hfirst] at hslash
  have hleads := (FileTree.pathLeads_join hpath hnode hhead).1
    (FileTree.pathLeads_of_resolve? hresolve)
  rw [Path.split_append_class] at hleads
  obtain ⟨d', hd', hopens, hentry⟩ :=
    FileTree.exists_directory_of_leads hw hnode hpackage hleads
  cases hd.unique hd'
  -- the names by which it is entered
  obtain ⟨i, first, start', p, trail, hfirst, hearlier, hstart', hroute, hp, hoffers⟩ :=
    exists_entered hw ha ⟨root, hroot, start, hpath, hnode, hopens⟩
  obtain ⟨hanswers, hsub⟩ :=
    hoffers _ (FileTree.mem_entries_of_leads hsimple.append_class hentry)
  obtain ⟨kind, path, hmem, hread⟩ := exists_candidate hp hsimple hanswers hentry hbytes
  refine locate_ne_notFound (hsub hmem) ?_ other
  by_cases hnames : p.names = Path.package name
  · exact .inl (hnames ▸ Path.logicalName_package hsimple.ne_dot)
  · obtain ⟨hsuffix, hdeclares⟩ :=
      (hspells i first start' p.names trail hfirst hearlier hstart' hroute).resolve_left hnames
    refine .inr ⟨?_, bytes, hread, hdeclares⟩
    have := Path.suffix_logicalName hsimple.ne_dot hsuffix hnames
    simp [Candidate.fits, this]

/-- The links around a class file do not hide it. -/
theorem linked_class_located : LinkedTree.tree.WellFormed ∧
    (ClassPath.ofRoots LinkedTree.outer).Answered LinkedTree.tree ∧
      LinkedTree.tree.bytes? (Path.join "." ("demo/A" ++ ".class")) = some [202, 254] ∧
      ∀ other, locate LinkedTree.tree "demo/A" ((ClassPath.ofRoots LinkedTree.outer).candidates
        LinkedTree.tree) ≠ .error (.notFound other) := by
  have hw : LinkedTree.tree.WellFormed := by decide
  have ha := LinkedTree.answered_of_walk LinkedTree.walk_outer (by decide)
  have hfile : LinkedTree.tree.bytes? (Path.join "." ("demo/A" ++ ".class")) = some [202, 254] :=
    LinkedTree.bytes (e := ["A.class", "demo"]) (by decide) (by decide)
  have hroot : ⟨.user, "."⟩ ∈ (ClassPath.ofRoots LinkedTree.outer).roots := by decide
  have hstart : LinkedTree.tree.directory? "." = some [] :=
    LinkedTree.directory (by decide) (by decide)
  have hd : LinkedTree.tree.Leads [] (Path.package "demo/A") ["demo"] :=
    (FileTree.leads_enter (by decide) (by decide) rfl).2 (FileTree.leads_nil.2 rfl)
  exact ⟨hw, ha, hfile, locate_ne_notFound_of_spells hw ha hroot hstart (by decide) hfile hd
    (LinkedTree.spells_demo _)⟩

/-- A class file in a root is missed if a root inside of it comes first. -/
theorem nested_root_hides_class : ∃ root ∈ (ClassPath.ofRoots LinkedTree.nested).roots,
    LinkedTree.tree.WellFormed ∧ (ClassPath.ofRoots LinkedTree.nested).Answered LinkedTree.tree ∧
      LinkedTree.tree.directory? root.path = some [] ∧
      (∀ part ∈ Text.split '/' "demo/A", Path.IsName part) ∧
      LinkedTree.tree.bytes? (Path.join root.path ("demo/A" ++ ".class")) = some [202, 254] ∧
      locate LinkedTree.tree "demo/A" ((ClassPath.ofRoots LinkedTree.nested).candidates
        LinkedTree.tree) = .error (.notFound "demo/A") := by
  refine ⟨⟨.user, "."⟩, by decide, by decide,
    LinkedTree.answered_of_walk LinkedTree.walk_nested (by decide),
    LinkedTree.directory (by decide) (by decide), by decide,
    LinkedTree.bytes (e := ["A.class", "demo"]) (by decide) (by decide), ?_⟩
  rw [LinkedTree.candidates_nested]
  rfl

end ClassLoading
