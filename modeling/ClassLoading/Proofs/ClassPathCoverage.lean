import ClassLoading.Proofs.ClassPathWalk

/-! What the walk over a class path offers. A root's part of the walk enters the directories that
the root reaches and no root in front of it does, each once; of every entry of such a directory that
leads to a file, the extension says whether it is offered itself, as the class files of an archive,
or not at all. As the roots are in the order of their kinds, so are the candidates. -/
namespace ClassLoading

/-! ### The entries of archives -/

namespace Zip

theorem nodup_insert {entries : List Entry} (h : (entries.map (·.name)).Nodup) (entry : Entry) :
    ((insert entries entry).map (·.name)).Nodup := by
  unfold insert
  split
  · have hnames : (entries.map fun other => if other.name == entry.name then entry else other).map
        (·.name) = entries.map (·.name) := by
      rw [List.map_map]
      refine List.map_congr_left fun other _ => ?_
      simp only [Function.comp_apply]
      split <;> simp_all
    rw [hnames]
    exact h
  · next hany =>
    rw [List.map_append, List.map_singleton]
    refine List.Nodup.append h (List.nodup_singleton _) (List.disjoint_singleton.2 fun hmem => ?_)
    obtain ⟨other, hother, hname⟩ := List.mem_map.1 hmem
    exact hany (List.any_eq_true.2 ⟨other, hother, by simpa using hname⟩)

/-- The entries of an archive have different names. -/
theorem nodup_entries? {data : Array UInt8} {entries : List Entry}
    (h : entries? data = some entries) : (entries.map (·.name)).Nodup := by
  obtain ⟨found, -, rfl⟩ := Option.map_eq_some_iff.1 h
  suffices hfold : ∀ start : List Entry, (start.map (·.name)).Nodup →
      ((found.foldl insert start).map (·.name)).Nodup from hfold [] List.nodup_nil
  intro start hstart
  clear h
  induction found generalizing start with
  | nil => exact hstart
  | cons entry rest ih => exact ih _ (nodup_insert hstart entry)

theorem Entry.className?_eq_some_iff {entry : Entry} {name : String} :
    entry.className? = some name ↔ entry.name = name ++ ".class" := by
  unfold className?
  split
  · next hsuffix =>
    obtain ⟨front, hfront⟩ := List.isSuffixOf_iff_suffix.1 hsuffix
    have htake : entry.name.toList.take (entry.name.length - 6) = front := by
      rw [← String.length_toList, ← hfront]
      simp
    rw [Option.some.injEq, htake, ← String.toList_inj, ← String.toList_inj, ← hfront,
      String.toList_append, List.append_left_inj, String.toList_ofList]
  · next hsuffix =>
    refine ⟨nofun, fun hname => absurd ?_ hsuffix⟩
    rw [hname, List.isSuffixOf_iff_suffix, String.toList_append]
    exact List.suffix_append _ _

end Zip

/-- The candidates of an archive: its entries with the extension of class files, each once. -/
structure ListsArchive (kind : RootKind) (path : String) (bytes : List UInt8)
    (candidates : List Candidate) : Prop where
  nodup : candidates.Nodup
  mem_iff : ∀ c, c ∈ candidates ↔ c.kind = kind ∧ ∃ entries entry,
    Zip.entries? bytes.toArray = some entries ∧ entry ∈ entries ∧
      entry.name = c.name ++ ".class" ∧ c.source = .entry path entry.name

section

variable {tree : FileTree}

theorem archiveCandidates_of_bytes? {path : String} {bytes : List UInt8} (kind : RootKind)
    (h : tree.bytes? path = some bytes) : archiveCandidates tree kind path =
      ((Zip.entries? bytes.toArray).getD []).filterMap fun entry =>
        entry.className?.map fun name => ⟨kind, name, .entry path entry.name⟩ := by
  obtain ⟨e, he, hnode⟩ := FileTree.bytes?_eq_some_iff.1 h
  cases hentries : Zip.entries? bytes.toArray <;>
    simp [archiveCandidates, FileTree.openArchive, he, hnode, hentries]

theorem listsArchive_archiveCandidates {path : String} {bytes : List UInt8} (kind : RootKind)
    (h : tree.bytes? path = some bytes) :
    ListsArchive kind path bytes (archiveCandidates tree kind path) := by
  rw [archiveCandidates_of_bytes? kind h]
  cases hentries : Zip.entries? bytes.toArray with
  | none => exact ⟨List.nodup_nil, by simp [hentries]⟩
  | some entries =>
    refine ⟨?_, fun c => ?_⟩
    · have hpairwise := List.pairwise_map.1 (Zip.nodup_entries? hentries)
      refine List.Pairwise.filterMap _ (fun a b hab x hx y hy hxy => hab ?_) hpairwise
      obtain ⟨_, -, rfl⟩ := Option.map_eq_some_iff.1 hx
      obtain ⟨_, -, rfl⟩ := Option.map_eq_some_iff.1 hy
      simp only [Candidate.mk.injEq, Source.entry.injEq] at hxy
      exact hxy.2.2.2
    · simp only [List.mem_filterMap, Option.map_eq_some_iff, Zip.Entry.className?_eq_some_iff]
      constructor
      · rintro ⟨entry, hentry, name, hname, rfl⟩
        exact ⟨rfl, entries, entry, hentries, hentry, hname, rfl⟩
      · rintro ⟨rfl, entries', entry, hentries', hentry, hname, hsource⟩
        cases hentries.symm.trans hentries'
        exact ⟨entry, hentry, c.name, hname, by rw [← hsource]⟩

/-! ### What the entries of directories offer -/

/-- What an entry of a directory offers where the directory is entered by a path: a class file is
offered under the names on the way to it, an archive offers the class files in it, and nothing else
offers anything. -/
inductive Offers (tree : FileTree) (p : Pending) (d : Location) (name : String) :
    List Candidate → Prop
  | classFile {e : Location} {bytes : List UInt8} {stem : String} (leads : tree.Leads d [name] e)
      (isFile : tree.node? e = some (.file bytes))
      (extension : Path.splitExtension name = (stem, some "class"))
      (readable : tree.bytes? (p.child name).path = some bytes) :
      Offers tree p d name
        [⟨p.kind, Path.logicalName p.names stem, .file (p.child name).path⟩]
  | archive {e : Location} {bytes : List UInt8} {stem : String} {candidates : List Candidate}
      (leads : tree.Leads d [name] e) (isFile : tree.node? e = some (.file bytes))
      (extension : Path.splitExtension name = (stem, some "jar"))
      (lists : ListsArchive p.kind (p.child name).path bytes candidates) :
      Offers tree p d name candidates
  | other (h : ∀ e bytes, tree.Leads d [name] e → tree.node? e = some (.file bytes) →
        (Path.splitExtension name).2 ≠ some "class" ∧ (Path.splitExtension name).2 ≠ some "jar") :
      Offers tree p d name []

/-- What a root offers that is no directory. -/
inductive RootOffers (tree : FileTree) (root : Root) : List Candidate → Prop
  | archive {e : Location} {bytes : List UInt8} {candidates : List Candidate}
      (leads : tree.PathLeads root.path e) (isFile : tree.node? e = some (.file bytes))
      (lists : ListsArchive root.kind root.path bytes candidates) : RootOffers tree root candidates
  | other (h : ∀ e bytes, tree.PathLeads root.path e → tree.node? e ≠ some (.file bytes)) :
      RootOffers tree root []

variable {p : Pending} {d : Location} {name : String} {root : Root}

theorem offers_candidates (hd : tree.directory? p.path = some d) (hname : Path.IsName name)
    (ha : tree.Answers (p.child name).path) :
    Offers tree p d name ((p.child name).candidates tree) := by
  have hleads := fun e => FileTree.pathLeads_child (e := e) hd hname
  have hlast : (p.child name).names.getLast? = some name := by simp [Pending.child]
  have hfront : (p.child name).names.dropLast = p.names := by simp [Pending.child]
  unfold Pending.candidates
  cases hbytes : tree.bytes? (p.child name).path with
  | none =>
    refine .other fun e bytes he hnode => ?_
    cases hbytes.symm.trans (ha.bytes?_eq_some_iff.2 ⟨e, (hleads e).2 he, hnode⟩)
  | some bytes =>
    obtain ⟨e, he, hnode⟩ := ha.bytes?_eq_some_iff.1 hbytes
    rw [hleads] at he
    rw [Option.isNone_some, if_neg Bool.false_ne_true, hlast, hfront]
    dsimp only
    split
    · next hext => exact .archive he hnode hext (listsArchive_archiveCandidates _ hbytes)
    · next stem hext => exact .classFile he hnode hext hbytes
    · next hjar hclass =>
      refine .other fun _ _ _ _ => ⟨fun hext => ?_, fun hext => ?_⟩
      · exact hclass _ (Prod.ext rfl hext)
      · exact hjar _ (Prod.ext rfl hext)

theorem Pending.candidates_of_directory? (hd : tree.directory? p.path = some d) :
    p.candidates tree = [] := by
  rw [Pending.candidates, FileTree.bytes?_of_directory? hd]
  rfl

theorem rootOffers_candidates (ha : tree.Answers root.path) :
    RootOffers tree root ((Pending.ofRoot root).candidates tree) := by
  unfold Pending.candidates
  cases hbytes : tree.bytes? (Pending.ofRoot root).path with
  | none =>
    refine .other fun e bytes he hnode => ?_
    cases hbytes.symm.trans (ha.bytes?_eq_some_iff.2 ⟨e, he, hnode⟩)
  | some bytes =>
    obtain ⟨e, he, hnode⟩ := ha.bytes?_eq_some_iff.1 hbytes
    exact .archive he hnode (listsArchive_archiveCandidates _ hbytes)

/-! ### The order of kinds -/

theorem kind_of_mem_archiveCandidates {kind : RootKind} {path : String} {c : Candidate}
    (h : c ∈ archiveCandidates tree kind path) : c.kind = kind := by
  unfold archiveCandidates at h
  split at h
  · cases h
  · obtain ⟨entry, -, hentry⟩ := List.mem_filterMap.1 h
    obtain ⟨_, -, rfl⟩ := Option.map_eq_some_iff.1 hentry
    rfl

theorem Stop.kind_of_mem_candidates {stop : Stop} {c : Candidate} (h : c ∈ stop.candidates tree) :
    c.kind = stop.pending.kind := by
  cases stop with
  | again _ _ | entered _ _ => cases h
  | passed p =>
    change c ∈ p.candidates tree at h
    unfold Pending.candidates at h
    split at h
    · cases h
    · split at h
      · exact kind_of_mem_archiveCandidates h
      · split at h
        · exact kind_of_mem_archiveCandidates h
        · rw [List.mem_singleton.1 h]
          rfl
        · cases h

namespace Walk

variable {visited : List Location} {todo : List Pending} {stops : List Stop}

theorem kind_of_mem (h : Walk tree visited todo stops) :
    ∀ stop ∈ stops, ∃ q ∈ todo, stop.pending.kind = q.kind := by
  intro stop hstop
  obtain ⟨_, hkind, -⟩ := forall_stops (P := fun _ p => ∃ q ∈ todo, p.kind = q.kind)
    (fun _ _ _ => id) (fun _ _ _ _ hp _ _ _ => hp) h (fun p hp => ⟨p, hp, rfl⟩) stop hstop
  exact hkind

/-- The kinds of the paths that are looked at are in order if those of the start are. -/
theorem pairwise_kind (h : Walk tree visited todo stops)
    (hsorted : todo.Pairwise fun p q => p.kind.rank ≤ q.kind.rank) :
    stops.Pairwise fun a b => a.pending.kind.rank ≤ b.pending.kind.rank := by
  induction h with
  | done => exact .nil
  | pass _ hrest ih | again _ _ hrest ih =>
    obtain ⟨hp, htodo⟩ := List.pairwise_cons.1 hsorted
    refine List.pairwise_cons.2 ⟨fun stop hstop => ?_, ih htodo⟩
    obtain ⟨q, hq, hkind⟩ := hrest.kind_of_mem stop hstop
    rw [hkind]
    exact hp q hq
  | @enter visited p d todo _ _ _ hrest ih =>
    obtain ⟨hp, htodo⟩ := List.pairwise_cons.1 hsorted
    have hall : ∀ q ∈ (tree.entries d).map p.child ++ todo, p.kind.rank ≤ q.kind.rank :=
      List.forall_mem_append.2 ⟨List.forall_mem_map.2 fun _ _ => Nat.le_refl _, hp⟩
    refine List.pairwise_cons.2 ⟨fun stop hstop => ?_, ih ?_⟩
    · obtain ⟨q, hq, hkind⟩ := hrest.kind_of_mem stop hstop
      rw [hkind]
      exact hall q hq
    · refine List.pairwise_append.2 ⟨?_, htodo, List.forall_mem_map.2 fun _ _ => hp⟩
      exact List.pairwise_map.2 (List.pairwise_of_forall fun _ _ => Nat.le_refl _)

theorem pairwise_candidates (h : Walk tree visited todo stops)
    (hsorted : todo.Pairwise fun p q => p.kind.rank ≤ q.kind.rank) :
    (stops.flatMap (Stop.candidates tree)).Pairwise fun a b => a.kind.rank ≤ b.kind.rank := by
  refine List.pairwise_flatMap.2 ⟨fun stop _ => ?_, (h.pairwise_kind hsorted).imp ?_⟩
  · refine List.Pairwise.imp_of_mem ?_ (List.pairwise_of_forall fun _ _ => trivial)
    intro a b ha hb _
    have hkind : a.kind = b.kind :=
      (Stop.kind_of_mem_candidates ha).trans (Stop.kind_of_mem_candidates hb).symm
    exact Nat.le_of_eq (congrArg RootKind.rank hkind)
  · intro s t hst a ha b hb
    rw [Stop.kind_of_mem_candidates ha, Stop.kind_of_mem_candidates hb]
    exact hst

end Walk

namespace ClassPath

/-- The class path to which roots have been added, one after the other. -/
def ofRoots (added : List Root) : ClassPath :=
  added.foldl (fun classPath root => classPath.push root.kind root.path) empty

theorem pairwise_push {classPath : ClassPath}
    (h : classPath.roots.Pairwise fun a b => a.kind.rank ≤ b.kind.rank) (kind : RootKind)
    (path : String) :
    (classPath.push kind path).roots.Pairwise fun a b => a.kind.rank ≤ b.kind.rank := by
  obtain ⟨roots⟩ := classPath
  dsimp only [push] at h ⊢
  induction roots with
  | nil => exact List.pairwise_singleton _ _
  | cons root roots ih =>
    obtain ⟨hroot, hroots⟩ := List.pairwise_cons.1 h
    by_cases hbefore : root.kind.rank ≤ kind.rank
    · rw [List.takeWhile_cons_of_pos (by simpa using hbefore),
        List.dropWhile_cons_of_pos (by simpa using hbefore), List.cons_append]
      refine List.pairwise_cons.2 ⟨List.forall_mem_append.2 ⟨fun r hr => ?_,
        List.forall_mem_cons.2 ⟨hbefore, fun r hr => ?_⟩⟩, ih hroots⟩
      · exact hroot r ((List.takeWhile_sublist _).mem hr)
      · exact hroot r ((List.dropWhile_sublist _).mem hr)
    · rw [List.takeWhile_cons_of_neg (by simpa using hbefore),
        List.dropWhile_cons_of_neg (by simpa using hbefore), List.nil_append]
      refine List.pairwise_cons.2 ⟨List.forall_mem_cons.2 ⟨by dsimp only; omega, fun r hr => ?_⟩, h⟩
      have := hroot r hr
      dsimp only
      omega

theorem pairwise_ofRoots (added : List Root) :
    (ofRoots added).roots.Pairwise fun a b => a.kind.rank ≤ b.kind.rank := by
  have hempty : empty.roots.Pairwise fun a b => a.kind.rank ≤ b.kind.rank := .nil
  unfold ofRoots
  generalize empty = classPath at hempty ⊢
  induction added generalizing classPath with
  | nil => exact hempty
  | cons root rest ih => exact ih _ (pairwise_push hempty _ _)

end ClassPath

/-! ### The whole walk -/

/-- What the turn of a root does: it enters the directories that the root reaches and no root in
front of it does, each once and on behalf of the root's kind, and it offers what the root offers
itself and what the entries of these directories offer, entry by entry. -/
structure Tour (tree : FileTree) (earlier : List Root) (root : Root) (stops : List Stop) :
    Prop where
  nodup : (Stop.locations stops).Nodup
  mem_iff : ∀ d, d ∈ Stop.locations stops ↔
    tree.Reaches root.path d ∧ ∀ r ∈ earlier, ¬tree.Reaches r.path d
  entered : ∀ e ∈ Stop.entries stops,
    e.1.kind = root.kind ∧ tree.directory? e.1.path = some e.2 ∧ (tree.entries e.2).Nodup
  own : RootOffers tree root ((Pending.ofRoot root).candidates tree)
  offers : ∀ e ∈ Stop.entries stops, ∀ name ∈ tree.entries e.2,
    Offers tree e.1 e.2 name ((e.1.child name).candidates tree)
  candidates : (stops.flatMap (Stop.candidates tree)).Perm
    ((Pending.ofRoot root).candidates tree ++ (Stop.entries stops).flatMap fun e =>
      (tree.entries e.2).flatMap fun name => (e.1.child name).candidates tree)

namespace Walk

variable {visited : List Location} {todo : List Pending} {stops : List Stop}

/-- A path to a directory has no candidates of its own, so every stop adds those of its path. -/
theorem candidates_eq (h : Walk tree visited todo stops) :
    ∀ stop ∈ stops, stop.candidates tree = stop.pending.candidates tree := by
  induction h with
  | done => simp
  | pass _ _ ih => exact List.forall_mem_cons.2 ⟨rfl, ih⟩
  | again hd _ _ ih | enter hd _ _ ih =>
    exact List.forall_mem_cons.2 ⟨(Pending.candidates_of_directory? hd).symm, ih⟩

theorem candidates_perm (h : Walk tree visited todo stops) :
    (stops.flatMap (Stop.candidates tree)).Perm (todo.flatMap (Pending.candidates tree) ++
      (Stop.entries stops).flatMap fun e =>
        (tree.entries e.2).flatMap fun name => (e.1.child name).candidates tree) := by
  have hperm := h.pending_perm.flatMap_right (Pending.candidates tree)
  rw [List.flatMap_append, List.flatMap_assoc] at hperm
  simp only [List.flatMap_map] at hperm
  rw [List.flatMap_congr h.candidates_eq]
  exact hperm

theorem tour (hw : tree.WellFormed) {earlier : List Root}
    (h : Walk tree visited [.ofRoot root] stops)
    (ha : ∀ stop ∈ stops, tree.Answers stop.pending.path)
    (hvisited : ∀ d, d ∈ visited ↔ ∃ r ∈ earlier, tree.Reaches r.path d) :
    Tour tree earlier root stops where
  nodup := h.nodup_locations.1
  mem_iff d := by
    rw [mem_locations_iff hw [root] h ha (FileTree.closed_of_reaches hvisited), hvisited]
    simp
  entered := by
    rintro ⟨p, d⟩ he
    obtain ⟨q, hq, hkind⟩ := h.kind_of_mem _ (Stop.mem_entries.1 he)
    cases List.mem_singleton.1 hq
    exact ⟨hkind, h.directory?_of_mem_entries _ he, hw.nodup_entries d⟩
  own := by
    obtain ⟨stop, hstop, hroot⟩ := exists_stop_root [root] h List.mem_cons_self
    have hanswers := ha stop hstop
    rw [hroot] at hanswers
    exact rootOffers_candidates hanswers
  offers := by
    rintro ⟨p, d⟩ he name hname
    obtain ⟨stop, hstop, hchild⟩ := h.exists_stop_child he hname
    exact offers_candidates (h.directory?_of_mem_entries _ he) (hw.isName hname)
      (hchild ▸ ha stop hstop)
  candidates := by simpa using h.candidates_perm

end Walk

/-- Every path that the walk over a class path comes to is answered. -/
def ClassPath.Answered (classPath : ClassPath) (tree : FileTree) : Prop :=
  ∀ stops, Walk tree [] (classPath.roots.map .ofRoot) stops →
    ∀ stop ∈ stops, tree.Answers stop.pending.path

/-- The walk over a class path as a whole: one tour for each root. -/
structure Itinerary (tree : FileTree) (classPath : ClassPath) (tours : List (List Stop)) :
    Prop where
  walk : Walk tree [] (classPath.roots.map .ofRoot) tours.flatten
  candidates : classPath.candidates tree = tours.flatten.flatMap (Stop.candidates tree)
  nodup : (Stop.locations tours.flatten).Nodup
  mem_iff : ∀ d, d ∈ Stop.locations tours.flatten ↔
    ∃ root ∈ classPath.roots, tree.Reaches root.path d
  length : tours.length = classPath.roots.length
  tour : ∀ i root stops, classPath.roots[i]? = some root → tours[i]? = some stops →
    Tour tree (classPath.roots.take i) root stops
  sorted : (classPath.candidates tree).Pairwise fun a b => a.kind.rank ≤ b.kind.rank

end

/-! ### A tree with links to the directories around them -/

namespace LinkedTree

def tree : FileTree where
  nodes := [(["demo"], .directory), (["A.class", "demo"], .file [202, 254]),
    (["up", "demo"], .link ".."), (["a"], .link ".")]
  working := []

/-- Paths of the tree and where they lead. -/
def paths : List (String × Location) :=
  [(".", []), ("./demo", ["demo"]), ("./demo/A.class", ["A.class", "demo"]), ("./demo/up", []),
    ("./a", []), ("demo", ["demo"]), ("demo/A.class", ["A.class", "demo"]), ("demo/up", []),
    ("demo/up/demo", ["demo"]), ("demo/up/a", [])]

theorem resolve?_eq : tree.Charted paths := by
  have hsplit : paths.map (Text.split '/' ·.1) =
      [["."], [".", "demo"], [".", "demo", "A.class"], [".", "demo", "up"], [".", "a"], ["demo"],
        ["demo", "A.class"], ["demo", "up"], ["demo", "up", "demo"], ["demo", "up", "a"]] := rfl
  have hdots : Text.split '/' ".." = [".."] := rfl
  simp only [paths, List.map_cons, List.map_nil, List.cons.injEq] at hsplit
  simp [FileTree.Charted, paths, FileTree.resolve?, FileTree.walk, FileTree.node?, FileTree.origin,
    tree, List.lookup_cons, FileTree.linkLimit, hsplit, hdots]

theorem directory {path : String} {d : Location} (h : (path, d) ∈ paths)
    (hd : tree.node? d = some .directory) : tree.directory? path = some d :=
  resolve?_eq.directory h hd

theorem notDirectory {path : String} {d : Location} (h : (path, d) ∈ paths)
    (hd : tree.node? d ≠ some .directory) : tree.directory? path = none :=
  resolve?_eq.notDirectory h hd

/-- A bootstrap root inside of a user root. -/
def nested : List Root := [⟨.user, "."⟩, ⟨.bootstrap, "demo"⟩]

/-- The inner root has its turn first and leads out of itself, so it leaves nothing to the other. -/
def nestedStops : List Stop :=
  [.entered ⟨.bootstrap, "demo", []⟩ ["demo"], .passed ⟨.bootstrap, "demo/A.class", ["A.class"]⟩,
    .entered ⟨.bootstrap, "demo/up", ["up"]⟩ [],
    .again ⟨.bootstrap, "demo/up/demo", ["up", "demo"]⟩ ["demo"],
    .again ⟨.bootstrap, "demo/up/a", ["up", "a"]⟩ [], .again ⟨.user, ".", []⟩ []]

theorem walk_nested : Walk tree [] ((ClassPath.ofRoots nested).roots.map .ofRoot) nestedStops := by
  refine .enter (directory (by decide) (by decide)) (by decide) ?_
  refine .pass (notDirectory (d := ["A.class", "demo"]) (by decide) (by decide)) ?_
  refine .enter (directory (by decide) (by decide)) (by decide) ?_
  refine .again (directory (by decide) (by decide)) (by decide) ?_
  refine .again (directory (by decide) (by decide)) (by decide) ?_
  exact .again (directory (by decide) (by decide)) (by decide) .done

theorem answered_of_walk {classPath : ClassPath} {stops : List Stop}
    (h : Walk tree [] (classPath.roots.map .ofRoot) stops)
    (hstops : ∀ stop ∈ stops, stop.pending.path ∈ paths.map (·.1)) : classPath.Answered tree := by
  intro stops' h' stop hstop
  rw [h'.unique h] at hstop
  obtain ⟨entry, hentry, hpath⟩ := List.mem_map.1 (hstops stop hstop)
  rw [← hpath]
  exact FileTree.answers_of_isSome (by rw [resolve?_eq entry hentry]; rfl)

end LinkedTree

/-! ### What the walk enters and offers -/

namespace ClassPath

/-- The walk over a class path comes to an end. It enters every directory that some root reaches
exactly once, on behalf of the first root that does, and it offers what the entries of these
directories and the roots offer, in the order of kinds. -/
theorem exists_itinerary {tree : FileTree} (hw : tree.WellFormed) (added : List Root)
    (ha : (ofRoots added).Answered tree) : ∃ tours, Itinerary tree (ofRoots added) tours := by
  obtain ⟨stops, hwalk⟩ := Walk.exists_of tree [] ((ofRoots added).roots.map .ofRoot)
  have hanswers := ha stops hwalk
  obtain ⟨tours, rfl, hlength, htours⟩ := Walk.exists_tours hw _ [] hwalk hanswers (by simp)
  have hcandidates : (ofRoots added).candidates tree = _ := hwalk.classPath_candidates
  refine ⟨tours, hwalk, hcandidates, hwalk.nodup_locations.1, fun d => ?_, hlength, ?_, ?_⟩
  · rw [Walk.mem_locations_iff hw _ hwalk hanswers (by simp)]
    simp
  · intro i root tour hroot htour
    obtain ⟨visited, hvisited, htour'⟩ := htours i root tour hroot htour
    refine htour'.tour hw (fun stop hstop => hanswers stop ?_) (by simpa using hvisited)
    exact List.mem_flatten.2 ⟨tour, List.mem_of_getElem? htour, hstop⟩
  · rw [hcandidates]
    exact hwalk.pairwise_candidates (List.pairwise_map.2 (pairwise_ofRoots added))

/-- With an inner root in front of the outer one, the inner one's turn enters everything. -/
theorem nested_roots_itinerary : LinkedTree.tree.WellFormed ∧
    (ofRoots LinkedTree.nested).Answered LinkedTree.tree ∧
      ∃ tours, Itinerary LinkedTree.tree (ofRoots LinkedTree.nested) tours ∧
        tours.flatten = LinkedTree.nestedStops := by
  have hw : LinkedTree.tree.WellFormed := by decide
  have ha := LinkedTree.answered_of_walk LinkedTree.walk_nested (by decide)
  obtain ⟨tours, h⟩ := exists_itinerary hw LinkedTree.nested ha
  exact ⟨hw, ha, tours, h, h.walk.unique LinkedTree.walk_nested⟩

end ClassPath

end ClassLoading
