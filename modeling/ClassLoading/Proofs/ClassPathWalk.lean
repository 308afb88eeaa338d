import Mathlib.Data.List.Flatten
import Mathlib.Data.List.Perm.Basic
import Mathlib.Logic.Relation
import ClassLoading.ClassPath.Walk
import ClassLoading.Proofs.PathResolution

/-! The walk over a class path, stop by stop. Each path that comes up is passed over, found to lead
to a directory that has been entered before, or entered, which brings up the entries of the
directory. Whatever way the links go, such a walk comes to an end, looks at everything that was to be
looked at once, and leaves no directory unentered that can be reached from its start. -/
namespace ClassLoading

/-- What becomes of a path when its turn comes. -/
inductive Stop where
  | passed (pending : Pending)
  | again (pending : Pending) (location : Location)
  | entered (pending : Pending) (location : Location)
  deriving DecidableEq, Repr, Inhabited

namespace Stop

def pending : Stop → Pending
  | passed p | again p _ | entered p _ => p

def entry? : Stop → Option (Pending × Location)
  | entered p d => some (p, d)
  | passed _ | again _ _ => none

/-- The path, if it is no directory. -/
def passed? : Stop → Option Pending
  | passed p => some p
  | again _ _ | entered _ _ => none

/-- What a stop adds to the candidates. -/
def candidates (tree : FileTree) : Stop → List Candidate
  | passed p => p.candidates tree
  | again _ _ | entered _ _ => []

theorem flatMap_passed? (tree : FileTree) (stops : List Stop) :
    (stops.filterMap passed?).flatMap (Pending.candidates tree) =
      stops.flatMap (candidates tree) := by
  induction stops with
  | nil => rfl
  | cons stop rest ih =>
    cases stop with
    | passed p =>
      rw [List.filterMap_cons, passed?, List.flatMap_cons, List.flatMap_cons, ih]
      rfl
    | again p d => exact ih
    | entered p d => exact ih

/-- The directories that are entered, each with the path that it is entered by. -/
def entries (stops : List Stop) : List (Pending × Location) := stops.filterMap entry?

def locations (stops : List Stop) : List Location := (entries stops).map (·.2)

variable {p : Pending} {d : Location} {stops stops' : List Stop}

@[simp] theorem entries_nil : entries [] = [] := rfl

@[simp] theorem entries_passed : entries (passed p :: stops) = entries stops := rfl

@[simp] theorem entries_again : entries (again p d :: stops) = entries stops := rfl

@[simp] theorem entries_entered : entries (entered p d :: stops) = (p, d) :: entries stops := rfl

@[simp] theorem locations_nil : locations [] = [] := rfl

@[simp] theorem locations_passed : locations (passed p :: stops) = locations stops := rfl

@[simp] theorem locations_again : locations (again p d :: stops) = locations stops := rfl

@[simp] theorem locations_entered :
    locations (entered p d :: stops) = d :: locations stops := rfl

theorem mem_locations : d ∈ locations stops ↔ ∃ p, (p, d) ∈ entries stops := by
  simp [locations]

theorem mem_entries : (p, d) ∈ entries stops ↔ entered p d ∈ stops := by
  rw [entries, List.mem_filterMap]
  constructor
  · rintro ⟨_ | _ | _, hmem, h⟩ <;> cases h
    exact hmem
  · exact fun h => ⟨_, h, rfl⟩

end Stop

/-- A walk from its start, where some directories count as entered and some paths are to
be looked at, to its end. -/
inductive Walk (tree : FileTree) : List Location → List Pending → List Stop → Prop
  | done {visited : List Location} : Walk tree visited [] []
  | pass {visited : List Location} {p : Pending} {todo : List Pending} {stops : List Stop}
      (elsewhere : tree.directory? p.path = none) (rest : Walk tree visited todo stops) :
      Walk tree visited (p :: todo) (.passed p :: stops)
  | again {visited : List Location} {p : Pending} {d : Location} {todo : List Pending}
      {stops : List Stop} (leads : tree.directory? p.path = some d) (known : d ∈ visited)
      (rest : Walk tree visited todo stops) : Walk tree visited (p :: todo) (.again p d :: stops)
  | enter {visited : List Location} {p : Pending} {d : Location} {todo : List Pending}
      {stops : List Stop} (leads : tree.directory? p.path = some d) (new : d ∉ visited)
      (rest : Walk tree (d :: visited) ((tree.entries d).map p.child ++ todo) stops) :
      Walk tree visited (p :: todo) (.entered p d :: stops)

namespace Walk

variable {tree : FileTree} {visited : List Location} {todo more : List Pending}
  {stops stops' : List Stop}

/-- The walk ends wherever it starts. -/
theorem exists_of (tree : FileTree) (visited : List Location) (todo : List Pending) :
    ∃ stops, Walk tree visited todo stops := by
  fun_induction FileTree.passedFrom tree visited todo with
  | case1 => exact ⟨_, .done⟩
  | case2 visited p rest hnone ih =>
    obtain ⟨stops, h⟩ := ih
    exact ⟨_, .pass hnone h⟩
  | case3 visited p rest d hd hv ih =>
    obtain ⟨stops, h⟩ := ih
    exact ⟨_, .again hd hv h⟩
  | case4 visited p rest d hd hv _ ih =>
    obtain ⟨stops, h⟩ := ih
    exact ⟨_, .enter hd hv h⟩

theorem unique (h : Walk tree visited todo stops) (h' : Walk tree visited todo stops') :
    stops = stops' := by
  induction h generalizing stops' with
  | done => cases h'; rfl
  | pass hnone _ ih => cases h' <;> grind
  | again hd hv _ ih => cases h' <;> grind
  | enter hd hv _ ih => cases h' <;> grind

theorem passedFrom_eq (h : Walk tree visited todo stops) :
    tree.passedFrom visited todo = stops.filterMap Stop.passed? := by
  induction h with
  | done => simp [FileTree.passedFrom]
  | pass hnone _ ih =>
    rw [FileTree.passedFrom]
    split
    · rw [ih, List.filterMap_cons, Stop.passed?]
    · next hd => cases hnone.symm.trans hd
  | again hd hv _ ih =>
    rw [FileTree.passedFrom]
    split
    · next hnone => cases hnone.symm.trans hd
    · next hd' =>
      cases hd.symm.trans hd'
      rw [dif_pos hv, ih, List.filterMap_cons, Stop.passed?]
  | enter hd hv _ ih =>
    rw [FileTree.passedFrom]
    split
    · next hnone => cases hnone.symm.trans hd
    · next hd' =>
      cases hd.symm.trans hd'
      rw [dif_neg hv, ih, List.filterMap_cons, Stop.passed?]

theorem classPath_candidates {classPath : ClassPath}
    (h : Walk tree [] (classPath.roots.map .ofRoot) stops) :
    classPath.candidates tree = stops.flatMap (Stop.candidates tree) := by
  have hpassed : classPath.passed tree = stops.filterMap Stop.passed? := h.passedFrom_eq
  rw [ClassPath.candidates, hpassed, Stop.flatMap_passed?]

/-- Runs over two lists of paths, of which the second starts with what the first has entered. -/
theorem append (h : Walk tree visited todo stops)
    (h' : Walk tree ((Stop.locations stops).reverse ++ visited) more stops') :
    Walk tree visited (todo ++ more) (stops ++ stops') := by
  induction h with
  | done => exact h'
  | pass hnone _ ih => exact .pass hnone (ih h')
  | again hd hv _ ih => exact .again hd hv (ih h')
  | enter hd hv _ ih =>
    refine .enter hd hv ?_
    rw [List.append_eq, ← List.append_assoc]
    exact ih (by simpa [Stop.locations, Stop.entries, Stop.entry?] using h')

/-- No directory is entered twice, nor one that counted as entered at the start. -/
theorem nodup_locations (h : Walk tree visited todo stops) :
    (Stop.locations stops).Nodup ∧ ∀ d ∈ Stop.locations stops, d ∉ visited := by
  induction h with
  | done => simp
  | pass _ _ ih => exact ih
  | again _ _ _ ih => exact ih
  | enter _ hv _ ih =>
    obtain ⟨hnodup, hfresh⟩ := ih
    simp only [List.mem_cons, not_or] at hfresh
    refine ⟨List.nodup_cons.2 ⟨fun hd => (hfresh _ hd).1 rfl, hnodup⟩, ?_⟩
    exact List.forall_mem_cons.2 ⟨hv, fun d hd => (hfresh d hd).2⟩

/-- The paths that are looked at are those of the start and, once for each directory that is
entered, those of its entries. -/
theorem pending_perm (h : Walk tree visited todo stops) :
    (stops.map Stop.pending).Perm
      (todo ++ (Stop.entries stops).flatMap fun e => (tree.entries e.2).map e.1.child) := by
  induction h with
  | done => rfl
  | pass _ _ ih => exact ih.cons _
  | again _ _ _ ih => exact ih.cons _
  | @enter visited p d todo stops _ _ _ ih =>
    refine (ih.cons p).trans (List.Perm.cons p ?_)
    rw [Stop.entries_entered, List.flatMap_cons, List.append_eq, ← List.append_assoc]
    exact List.perm_append_comm.append_right _

/-- A directory that is looked at has been entered in the end. -/
theorem covers (h : Walk tree visited todo stops) :
    ∀ stop ∈ stops, ∀ d, tree.directory? stop.pending.path = some d →
      d ∈ visited ∨ d ∈ Stop.locations stops := by
  induction h with
  | done => simp
  | pass hnone _ ih =>
    refine List.forall_mem_cons.2 ⟨fun d hd => ?_, ih⟩
    cases hnone.symm.trans hd
  | again hd hv _ ih =>
    refine List.forall_mem_cons.2 ⟨fun d' hd' => ?_, ih⟩
    cases hd.symm.trans hd'
    exact .inl hv
  | enter hd hv _ ih =>
    refine List.forall_mem_cons.2 ⟨fun d' hd' => ?_, fun stop hstop d' hd' => ?_⟩
    · cases hd.symm.trans hd'
      exact .inr List.mem_cons_self
    · rw [Stop.locations_entered]
      have := ih stop hstop d' hd'
      grind

/-- What holds of the paths at the start, together with what has been entered so far, and passes on
to the entries of a directory holds of every path when its turn comes. -/
theorem forall_stops {P : List Location → Pending → Prop}
    (hgrows : ∀ visited d p, P visited p → P (d :: visited) p)
    (hchild : ∀ visited p d name, P visited p → tree.directory? p.path = some d → d ∉ visited →
      name ∈ tree.entries d → P (d :: visited) (p.child name))
    (h : Walk tree visited todo stops) (hstart : ∀ p ∈ todo, P visited p) :
    ∀ stop ∈ stops, ∃ visited, P visited stop.pending ∧
      ∀ p d, stop = .entered p d → tree.directory? p.path = some d ∧ d ∉ visited := by
  induction h with
  | done => simp
  | pass _ _ ih =>
    obtain ⟨hp, htodo⟩ := List.forall_mem_cons.1 hstart
    exact List.forall_mem_cons.2 ⟨⟨_, hp, nofun⟩, ih htodo⟩
  | again _ _ _ ih =>
    obtain ⟨hp, htodo⟩ := List.forall_mem_cons.1 hstart
    exact List.forall_mem_cons.2 ⟨⟨_, hp, nofun⟩, ih htodo⟩
  | enter hd hv _ ih =>
    obtain ⟨hp, htodo⟩ := List.forall_mem_cons.1 hstart
    refine List.forall_mem_cons.2 ⟨⟨_, hp, fun p d heq => ?_⟩, ih ?_⟩
    · cases heq
      exact ⟨hd, hv⟩
    · refine List.forall_mem_append.2 ⟨List.forall_mem_map.2 fun name hname => ?_, fun q hq => ?_⟩
      · exact hchild _ _ _ _ hp hd hv hname
      · exact hgrows _ _ _ (htodo q hq)

end Walk

/-! ### The directories that can be reached -/

namespace FileTree

/-- A directory has an entry that leads to another directory. -/
def Opens (tree : FileTree) (d d' : Location) : Prop :=
  ∃ name ∈ tree.entries d, tree.Leads d [name] d' ∧ tree.node? d' = some .directory

/-- A directory can be reached from a path through the entries of directories. -/
def Reaches (tree : FileTree) (path : String) (d : Location) : Prop :=
  ∃ start, tree.PathLeads path start ∧ tree.node? start = some .directory ∧
    Relation.ReflTransGen tree.Opens start d

variable {tree : FileTree} {path name : String} {p : Pending} {d d' e : Location}

theorem Reaches.opens (h : tree.Reaches path d) (hopens : tree.Opens d d') :
    tree.Reaches path d' := by
  obtain ⟨start, hpath, hstart, hd⟩ := h
  exact ⟨start, hpath, hstart, hd.tail hopens⟩

/-- Nothing opens from what some paths reach but what they reach as well. -/
theorem closed_of_reaches {visited : List Location} {roots : List Root}
    (h : ∀ d, d ∈ visited ↔ ∃ r ∈ roots, tree.Reaches r.path d) :
    ∀ d ∈ visited, ∀ d', tree.Opens d d' → d' ∈ visited := by
  intro d hd d' hopens
  obtain ⟨r, hr, hreaches⟩ := (h d).1 hd
  exact (h d').2 ⟨r, hr, hreaches.opens hopens⟩

/-- The path of an entry leads to where the entry leads from its directory. -/
theorem pathLeads_child (hd : tree.directory? p.path = some d) (hname : Path.IsName name) :
    tree.PathLeads (p.child name).path e ↔ tree.Leads d [name] e := by
  obtain ⟨hpath, hnode⟩ := pathLeads_of_directory? hd
  rw [← Text.split_eq_singleton hname.noSlash]
  exact pathLeads_join hpath hnode fun hhead => hname.noSlash (List.mem_of_mem_head? hhead)

theorem opens_of_directory?_child (hw : tree.WellFormed) (hd : tree.directory? p.path = some d)
    (hname : name ∈ tree.entries d) (h : tree.directory? (p.child name).path = some d') :
    tree.Opens d d' := by
  obtain ⟨hpath, hnode⟩ := pathLeads_of_directory? h
  exact ⟨name, hname, (pathLeads_child hd (hw.isName hname)).1 hpath, hnode⟩

end FileTree

namespace Walk

variable {tree : FileTree} {visited : List Location} {todo : List Pending} {stops : List Stop}
  {root : Root} {d d' : Location}

theorem directory?_of_mem_entries (h : Walk tree visited todo stops) :
    ∀ e ∈ Stop.entries stops, tree.directory? e.1.path = some e.2 := by
  rintro ⟨p, d⟩ he
  obtain ⟨_, -, hentered⟩ := forall_stops (P := fun _ _ => True) (fun _ _ _ => id)
    (fun _ _ _ _ _ _ _ _ => trivial) h (fun _ _ => trivial) _ (Stop.mem_entries.1 he)
  exact (hentered p d rfl).1

/-- Every entry of a directory that is entered is looked at. -/
theorem exists_stop_child (h : Walk tree visited todo stops) {p : Pending} {name : String}
    (hentered : (p, d) ∈ Stop.entries stops) (hname : name ∈ tree.entries d) :
    ∃ stop ∈ stops, stop.pending = p.child name := by
  have hmem : p.child name ∈ stops.map Stop.pending := by
    refine h.pending_perm.mem_iff.2 (List.mem_append_right _ (List.mem_flatMap.2 ?_))
    exact ⟨_, hentered, List.mem_map_of_mem hname⟩
  simpa using hmem

theorem exists_stop_root (roots : List Root) (h : Walk tree visited (roots.map .ofRoot) stops)
    (hroot : root ∈ roots) : ∃ stop ∈ stops, stop.pending = .ofRoot root := by
  have hmem : Pending.ofRoot root ∈ stops.map Stop.pending :=
    h.pending_perm.mem_iff.2 (List.mem_append_left _ (List.mem_map_of_mem hroot))
  simpa using hmem

/-- What opens from a directory that is entered has been entered in the end. -/
theorem mem_of_opens (hw : tree.WellFormed) (h : Walk tree visited todo stops)
    (ha : ∀ stop ∈ stops, tree.Answers stop.pending.path) (hd : d ∈ Stop.locations stops)
    (hopens : tree.Opens d d') : d' ∈ visited ∨ d' ∈ Stop.locations stops := by
  obtain ⟨p, hentered⟩ := Stop.mem_locations.1 hd
  obtain ⟨name, hname, hleads, hnode⟩ := hopens
  obtain ⟨stop, hstop, hchild⟩ := h.exists_stop_child hentered hname
  refine h.covers stop hstop d' ((ha stop hstop).directory?_eq_some_iff.2 ⟨?_, hnode⟩)
  rw [hchild, FileTree.pathLeads_child (h.directory?_of_mem_entries _ hentered) (hw.isName hname)]
  exact hleads

/-- Only what some root reaches is entered. -/
theorem reaches_of_mem (hw : tree.WellFormed) {roots : List Root}
    (h : Walk tree visited (roots.map .ofRoot) stops) (hd : d ∈ Stop.locations stops) :
    ∃ r ∈ roots, tree.Reaches r.path d := by
  obtain ⟨p, hentered⟩ := Stop.mem_locations.1 hd
  have hstart : ∀ root ∈ roots, ∀ d, tree.directory? root.path = some d →
      ∃ r ∈ roots, tree.Reaches r.path d := by
    intro root hroot d hd
    obtain ⟨hpath, hnode⟩ := FileTree.pathLeads_of_directory? hd
    exact ⟨root, hroot, d, hpath, hnode, .refl⟩
  obtain ⟨_, hreaches, hdirectory⟩ := forall_stops
    (P := fun _ p => ∀ d, tree.directory? p.path = some d → ∃ r ∈ roots, tree.Reaches r.path d)
    (fun _ _ _ => id)
    (fun _ p d name hp hd _ hname d' hd' =>
      have ⟨r, hr, hreaches⟩ := hp d hd
      ⟨r, hr, hreaches.opens (FileTree.opens_of_directory?_child hw hd hname hd')⟩)
    h (List.forall_mem_map.2 hstart) _ (Stop.mem_entries.1 hentered)
  exact hreaches d (hdirectory p d rfl).1

/-- What the roots reach is entered, less what has been entered before, if all that opens from there
has been entered as well. -/
theorem mem_locations_iff (hw : tree.WellFormed) (roots : List Root)
    (h : Walk tree visited (roots.map .ofRoot) stops)
    (ha : ∀ stop ∈ stops, tree.Answers stop.pending.path)
    (hclosed : ∀ d ∈ visited, ∀ d', tree.Opens d d' → d' ∈ visited) :
    d ∈ Stop.locations stops ↔ (∃ r ∈ roots, tree.Reaches r.path d) ∧ d ∉ visited := by
  refine ⟨fun hd => ⟨h.reaches_of_mem hw hd, h.nodup_locations.2 d hd⟩, ?_⟩
  rintro ⟨⟨root, hroot, start, hpath, hstart, hd⟩, hv⟩
  refine Or.resolve_left ?_ hv
  clear hv
  induction hd with
  | refl =>
    obtain ⟨stop, hstop, hpending⟩ := exists_stop_root roots h hroot
    refine h.covers stop hstop start ((ha stop hstop).directory?_eq_some_iff.2 ⟨?_, hstart⟩)
    rw [hpending]
    exact hpath
  | tail _ hopens ih =>
    rcases ih with hv | hl
    · exact .inl (hclosed _ hv _ hopens)
    · exact h.mem_of_opens hw ha hl hopens

/-- A walk over roots is made of one walk for each root, and what has been entered when the turn of a
root comes is what the roots in front of it reach. -/
theorem exists_tours (hw : tree.WellFormed) (roots earlier : List Root)
    (h : Walk tree visited (roots.map .ofRoot) stops)
    (ha : ∀ stop ∈ stops, tree.Answers stop.pending.path)
    (hvisited : ∀ d, d ∈ visited ↔ ∃ r ∈ earlier, tree.Reaches r.path d) :
    ∃ tours : List (List Stop), stops = tours.flatten ∧ tours.length = roots.length ∧
      ∀ i root tour, roots[i]? = some root → tours[i]? = some tour → ∃ visited,
        (∀ d, d ∈ visited ↔ ∃ r ∈ earlier ++ roots.take i, tree.Reaches r.path d) ∧
          Walk tree visited [.ofRoot root] tour := by
  induction roots generalizing visited earlier stops with
  | nil =>
    cases h
    exact ⟨[], rfl, rfl, by simp⟩
  | cons root roots ih =>
    obtain ⟨first, hfirst⟩ := exists_of tree visited [.ofRoot root]
    obtain ⟨others, hothers⟩ :=
      exists_of tree ((Stop.locations first).reverse ++ visited) (roots.map .ofRoot)
    obtain rfl := h.unique (hfirst.append hothers)
    obtain ⟨hafirst, haothers⟩ := List.forall_mem_append.1 ha
    have hclosed := FileTree.closed_of_reaches hvisited
    have hnext : ∀ d, d ∈ (Stop.locations first).reverse ++ visited ↔
        ∃ r ∈ earlier ++ [root], tree.Reaches r.path d := by
      intro d
      rw [List.mem_append, List.mem_reverse, mem_locations_iff hw [root] hfirst hafirst hclosed]
      have hv := hvisited d
      simp only [List.mem_append, List.mem_singleton]
      grind
    obtain ⟨tours, rfl, hlength, htours⟩ := ih _ hothers haothers hnext
    refine ⟨first :: tours, rfl, by simp [hlength], ?_⟩
    rintro (_ | i) root' tour hroot htour
    · cases hroot
      cases htour
      exact ⟨visited, by simpa using hvisited, hfirst⟩
    · simpa using htours i root' tour hroot htour

end Walk

end ClassLoading
