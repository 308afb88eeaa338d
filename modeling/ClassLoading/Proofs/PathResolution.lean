import Mathlib.Data.List.Nodup
import ClassLoading.Files.Path
import ClassLoading.Files.Tree

/-! Where paths lead in a tree of files. The limit on links is an accident of asking, so a path is
said to lead to a location if some number of links suffices for it; there is at most one such
location. A path that goes on behind a directory leads to where the rest of it leads from there:
that is what allows to speak of the entries of a directory without the path by which it was
reached. -/
namespace ClassLoading

namespace Text

variable {separator : Char} {xs : List Char}

theorem splitChars_ne_nil (separator : Char) (xs : List Char) : splitChars separator xs ≠ [] := by
  fun_cases splitChars separator xs <;> simp_all

theorem splitChars_append_cons (separator : Char) (xs ys : List Char) :
    splitChars separator (xs ++ separator :: ys) =
      splitChars separator xs ++ splitChars separator ys := by
  fun_induction splitChars separator xs with
  | case1 => simp [splitChars]
  | case2 rest ih => simp [splitChars, ih]
  | case3 c rest hc hnil ih => exact absurd hnil (splitChars_ne_nil _ _)
  | case4 c rest hc piece pieces hcons ih =>
    simp [splitChars, hc, ih, hcons]

theorem splitChars_eq_singleton (h : separator ∉ xs) : splitChars separator xs = [xs] := by
  fun_induction splitChars separator xs with
  | case1 => rfl
  | case2 => simp at h
  | case3 _ _ _ hnil => exact absurd hnil (splitChars_ne_nil _ _)
  | case4 c rest hc piece pieces hcons ih => simp_all

theorem split_ne_nil (separator : Char) (text : String) : split separator text ≠ [] := by
  simpa [split] using splitChars_ne_nil separator text.toList

theorem split_eq_singleton {text : String} (h : separator ∉ text.toList) :
    split separator text = [text] := by
  simp [split, splitChars_eq_singleton h]

end Text

namespace Path

/-- What a directory calls an entry: some text without a slash that is not one of the two names
which stand for the directory itself and for the one around it. -/
structure IsName (name : String) : Prop where
  ne_empty : name ≠ ""
  ne_dot : name ≠ "."
  ne_dots : name ≠ ".."
  noSlash : '/' ∉ name.toList

instance (name : String) : Decidable (IsName name) :=
  decidable_of_iff (name ≠ "" ∧ name ≠ "." ∧ name ≠ ".." ∧ '/' ∉ name.toList)
    ⟨fun ⟨h₁, h₂, h₃, h₄⟩ => ⟨h₁, h₂, h₃, h₄⟩, fun h => ⟨h.1, h.2, h.3, h.4⟩⟩

/-- The names of a longer path are those of the path in front and those behind it, but for the empty
name that a slash at the end of the path in front makes. -/
theorem split_join {base rest : String} (hbase : base ≠ "") (hrest : rest.toList.head? ≠ some '/') :
    Text.split '/' (join base rest) = Text.split '/' base ++ Text.split '/' rest ∨
      ∃ names, Text.split '/' base = names ++ [""] ∧
        Text.split '/' (join base rest) = names ++ Text.split '/' rest := by
  unfold join
  rw [if_neg hrest, if_neg hbase]
  split
  · next hlast =>
    obtain ⟨front, hfront⟩ := List.getLast?_eq_some_iff.1 hlast
    refine .inr ⟨(Text.splitChars '/' front).map String.ofList, ?_, ?_⟩
    · simp [Text.split, hfront, Text.splitChars_append_cons, Text.splitChars]
    · simp [Text.split, hfront, Text.splitChars_append_cons]
  · refine .inl ?_
    simp [Text.split, Text.splitChars_append_cons]

end Path

namespace FileTree

variable {tree : FileTree} {links : Nat} {location start d e : Location} {name path : String}
  {names rest : List String}

/-- No two nodes are in one place, every node is in a directory, and entries have names. -/
structure WellFormed (tree : FileTree) : Prop where
  distinct : (tree.nodes.map (·.1)).Nodup
  names : ∀ entry ∈ tree.nodes, ∀ name ∈ entry.1, Path.IsName name
  parents : ∀ entry ∈ tree.nodes, tree.node? entry.1.tail = some .directory
  working : tree.node? tree.working = some .directory

instance (tree : FileTree) : Decidable tree.WellFormed :=
  decidable_of_iff ((tree.nodes.map (·.1)).Nodup ∧
      (∀ entry ∈ tree.nodes, ∀ name ∈ entry.1, Path.IsName name) ∧
      (∀ entry ∈ tree.nodes, tree.node? entry.1.tail = some .directory) ∧
      tree.node? tree.working = some .directory)
    ⟨fun ⟨h₁, h₂, h₃, h₄⟩ => ⟨h₁, h₂, h₃, h₄⟩, fun h => ⟨h.1, h.2, h.3, h.4⟩⟩

theorem mem_entries {tree : FileTree} {d : Location} {name : String} :
    name ∈ tree.entries d ↔ ∃ node, (name :: d, node) ∈ tree.nodes := by
  simp only [entries, List.mem_filterMap, Prod.exists]
  constructor
  · rintro ⟨l, node, hmem, h⟩
    cases l with
    | nil => cases h
    | cons name' parent =>
      simp only [Option.ite_none_right_eq_some, Option.some.injEq] at h
      obtain ⟨rfl, rfl⟩ := h
      exact ⟨node, hmem⟩
  · rintro ⟨node, hmem⟩
    exact ⟨name :: d, node, hmem, by simp⟩

theorem mem_nodes_of_node? {node : Node} (h : tree.node? (name :: location) = some node) :
    (name :: location, node) ∈ tree.nodes := by
  rw [node?, if_neg (List.cons_ne_nil _ _)] at h
  obtain ⟨l₁, l₂, hn, -⟩ := List.lookup_eq_some_iff.1 h
  simp [hn]

namespace WellFormed

theorem isName (h : tree.WellFormed) (hname : name ∈ tree.entries d) : Path.IsName name := by
  obtain ⟨node, hmem⟩ := mem_entries.1 hname
  exact h.names _ hmem name List.mem_cons_self

theorem nodup_entries (h : tree.WellFormed) (d : Location) : (tree.entries d).Nodup := by
  have hnodes : tree.nodes.Pairwise (fun a b => a.1 ≠ b.1) := List.pairwise_map.1 h.distinct
  refine List.Pairwise.filterMap _ (fun a b hab x hx y hy hxy => hab ?_) hnodes
  subst hxy
  obtain ⟨_ | ⟨n, l⟩, _⟩ := a <;> obtain ⟨_ | ⟨n', l'⟩, _⟩ := b <;> simp_all

/-- The directory around a directory. -/
theorem tail (h : tree.WellFormed) (hl : tree.node? location = some .directory) :
    tree.node? location.tail = some .directory := by
  cases location with
  | nil => exact hl
  | cons name parent => exact h.parents _ (mem_nodes_of_node? hl)

end WellFormed

/-! ### Where names lead -/

/-- Where names lead from a location if enough links may be followed. -/
def Leads (tree : FileTree) (start : Location) (names : List String) (location : Location) : Prop :=
  ∃ links, tree.walk links start names = some location

section

variable (h₁ : ¬(name = "" ∨ name = ".")) (h₂ : name ≠ "..")

theorem walk_stay (h : name = "" ∨ name = ".") :
    tree.walk links start (name :: rest) = tree.walk links start rest := by
  rw [walk, if_pos h]

theorem walk_up : tree.walk links start (".." :: rest) = tree.walk links start.tail rest := by
  rw [walk, if_neg (by decide), if_pos rfl]

include h₁ h₂

theorem walk_missing (hnode : tree.node? (name :: start) = none) :
    tree.walk links start (name :: rest) = none := by
  rw [walk, if_neg h₁, if_neg h₂, hnode]

theorem walk_enter (hnode : tree.node? (name :: start) = some .directory) :
    tree.walk links start (name :: rest) = tree.walk links (name :: start) rest := by
  rw [walk, if_neg h₁, if_neg h₂, hnode]

theorem walk_file {bytes : List UInt8} (hnode : tree.node? (name :: start) = some (.file bytes)) :
    tree.walk links start (name :: rest) = if rest.isEmpty then some (name :: start) else none := by
  rw [walk, if_neg h₁, if_neg h₂, hnode]

theorem walk_exhausted {target : String}
    (hnode : tree.node? (name :: start) = some (.link target)) :
    tree.walk 0 start (name :: rest) = none := by
  rw [walk, if_neg h₁, if_neg h₂, hnode]

theorem walk_follow {target : String} (hnode : tree.node? (name :: start) = some (.link target)) :
    tree.walk (links + 1) start (name :: rest) =
      tree.walk links (origin target start) (Text.split '/' target ++ rest) := by
  rw [walk, if_neg h₁, if_neg h₂, hnode]

end

theorem walk_add_one (h : tree.walk links start names = some location) :
    tree.walk (links + 1) start names = some location := by
  fun_induction walk tree links start names with
  | case1 => simpa [walk] using h
  | case2 links start name rest hname ih =>
    rw [walk_stay hname]
    exact ih h
  | case3 links start rest _ ih =>
    rw [walk_up]
    exact ih h
  | case4 => cases h
  | case5 links start name rest h₁ h₂ hnode ih =>
    rw [walk_enter h₁ h₂ hnode]
    exact ih h
  | case6 links start name rest h₁ h₂ bytes hnode hrest =>
    rw [walk_file h₁ h₂ hnode, if_pos hrest]
    exact h
  | case7 => cases h
  | case8 => cases h
  | case9 start name rest h₁ h₂ target hnode links ih =>
    rw [walk_follow h₁ h₂ hnode]
    exact ih h

theorem walk_of_le {more : Nat} (hle : links ≤ more)
    (h : tree.walk links start names = some location) :
    tree.walk more start names = some location := by
  induction hle with
  | refl => exact h
  | step _ ih => exact walk_add_one ih

theorem Leads.unique (h : tree.Leads start names d) (h' : tree.Leads start names e) : d = e := by
  obtain ⟨k, hk⟩ := h
  obtain ⟨m, hm⟩ := h'
  have hd := walk_of_le (Nat.le_add_right k m) hk
  rw [walk_of_le (Nat.le_add_left m k) hm] at hd
  exact (Option.some.inj hd).symm

@[simp] theorem leads_nil : tree.Leads start [] e ↔ start = e := by
  simp [Leads, walk]

theorem leads_stay (h : name = "" ∨ name = ".") :
    tree.Leads start (name :: rest) e ↔ tree.Leads start rest e := by
  simp only [Leads, walk_stay h]

theorem leads_up : tree.Leads start (".." :: rest) e ↔ tree.Leads start.tail rest e := by
  simp only [Leads, walk_up]

theorem leads_enter (h₁ : ¬(name = "" ∨ name = ".")) (h₂ : name ≠ "..")
    (hnode : tree.node? (name :: start) = some .directory) :
    tree.Leads start (name :: rest) e ↔ tree.Leads (name :: start) rest e := by
  simp only [Leads, walk_enter h₁ h₂ hnode]

theorem leads_follow (h₁ : ¬(name = "" ∨ name = ".")) (h₂ : name ≠ "..") {target : String}
    (hnode : tree.node? (name :: start) = some (.link target)) :
    tree.Leads start (name :: rest) e ↔
      tree.Leads (origin target start) (Text.split '/' target ++ rest) e := by
  constructor
  · rintro ⟨_ | links, h⟩
    · rw [walk_exhausted h₁ h₂ hnode] at h
      cases h
    · rw [walk_follow h₁ h₂ hnode] at h
      exact ⟨links, h⟩
  · rintro ⟨links, h⟩
    exact ⟨links + 1, by rw [walk_follow h₁ h₂ hnode, h]⟩

/-- Names behind a directory lead on from the directory. -/
theorem leads_append (h : tree.Leads start names d) (hd : tree.node? d = some .directory) :
    tree.Leads start (names ++ rest) e ↔ tree.Leads d rest e := by
  obtain ⟨links, h⟩ := h
  fun_induction walk tree links start names with
  | case1 => cases h; rfl
  | case2 links start name rest hname ih => rw [List.cons_append, leads_stay hname, ih h]
  | case3 links start rest hname ih => rw [List.cons_append, leads_up, ih h]
  | case4 => cases h
  | case5 links start name rest h₁ h₂ hnode ih =>
    rw [List.cons_append, leads_enter h₁ h₂ hnode, ih h]
  | case6 links start name rest h₁ h₂ bytes hnode hrest =>
    cases h
    rw [hd] at hnode
    cases hnode
  | case7 => cases h
  | case8 => cases h
  | case9 start name rest' h₁ h₂ target hnode links ih =>
    rw [List.cons_append, leads_follow h₁ h₂ hnode, ← List.append_assoc, ih h]

theorem node?_origin (h : tree.node? location = some .directory) (path : String) :
    tree.node? (origin path location) = some .directory := by
  unfold origin
  split
  · simp [node?]
  · exact h

/-- Names that lead somewhere lead through directories. -/
theorem exists_leads_of_append (hw : tree.WellFormed)
    (hstart : tree.node? start = some .directory) (hrest : rest ≠ [])
    (h : tree.Leads start (names ++ rest) e) :
    ∃ d, tree.Leads start names d ∧ tree.node? d = some .directory ∧ tree.Leads d rest e := by
  obtain ⟨links, h⟩ := h
  fun_induction walk tree links start names with
  | case1 links start => exact ⟨start, leads_nil.2 rfl, hstart, links, h⟩
  | case2 links start name names hname ih =>
    rw [List.cons_append, walk_stay hname] at h
    simp only [leads_stay hname]
    exact ih hstart h
  | case3 links start names _ ih =>
    rw [List.cons_append, walk_up] at h
    simp only [leads_up]
    exact ih (hw.tail hstart) h
  | case4 links start name names h₁ h₂ hnode =>
    rw [List.cons_append, walk_missing h₁ h₂ hnode] at h
    cases h
  | case5 links start name names h₁ h₂ hnode ih =>
    rw [List.cons_append, walk_enter h₁ h₂ hnode] at h
    simp only [leads_enter h₁ h₂ hnode]
    exact ih hnode h
  | case6 links start name _ h₁ h₂ bytes hnode | case7 links start name _ h₁ h₂ bytes hnode =>
    rw [List.cons_append, walk_file h₁ h₂ hnode] at h
    simp [hrest] at h
  | case8 start name names h₁ h₂ target hnode =>
    rw [List.cons_append, walk_exhausted h₁ h₂ hnode] at h
    cases h
  | case9 start name names h₁ h₂ target hnode links ih =>
    rw [List.cons_append, walk_follow h₁ h₂ hnode, ← List.append_assoc] at h
    simp only [leads_follow h₁ h₂ hnode]
    exact ih (node?_origin hstart target) h

/-- An empty name changes nothing unless it comes last. -/
theorem walk_append_empty (hrest : rest ≠ []) :
    tree.walk links start (names ++ "" :: rest) = tree.walk links start (names ++ rest) := by
  fun_induction walk tree links start names with
  | case1 => exact walk_stay (.inl rfl)
  | case2 links start name _ hname ih =>
    rw [List.cons_append, List.cons_append, walk_stay hname, walk_stay hname, ih]
  | case3 links start _ _ ih => rw [List.cons_append, List.cons_append, walk_up, walk_up, ih]
  | case4 links start name _ h₁ h₂ hnode =>
    rw [List.cons_append, List.cons_append, walk_missing h₁ h₂ hnode, walk_missing h₁ h₂ hnode]
  | case5 links start name _ h₁ h₂ hnode ih =>
    rw [List.cons_append, List.cons_append, walk_enter h₁ h₂ hnode, walk_enter h₁ h₂ hnode, ih]
  | case6 links start name _ h₁ h₂ bytes hnode | case7 links start name _ h₁ h₂ bytes hnode =>
    rw [List.cons_append, List.cons_append, walk_file h₁ h₂ hnode, walk_file h₁ h₂ hnode]
    simp [hrest]
  | case8 start name _ h₁ h₂ target hnode =>
    rw [List.cons_append, List.cons_append, walk_exhausted h₁ h₂ hnode, walk_exhausted h₁ h₂ hnode]
  | case9 start name _ h₁ h₂ target hnode links ih =>
    rw [List.cons_append, List.cons_append, walk_follow h₁ h₂ hnode, walk_follow h₁ h₂ hnode,
      ← List.append_assoc, ih, List.append_assoc]

/-! ### Where paths lead -/

/-- Where a path leads if enough links may be followed. -/
def PathLeads (tree : FileTree) (path : String) (location : Location) : Prop :=
  path ≠ "" ∧ tree.Leads (origin path tree.working) (Text.split '/' path) location

theorem pathLeads_of_resolve? (h : tree.resolve? path = some location) :
    tree.PathLeads path location := by
  unfold resolve? at h
  split at h
  · cases h
  · next hpath => exact ⟨hpath, linkLimit, h⟩

theorem PathLeads.unique (h : tree.PathLeads path d) (h' : tree.PathLeads path e) : d = e :=
  h.2.unique h'.2

theorem head?_join {base rest : String} (hbase : base ≠ "") (hrest : rest.toList.head? ≠ some '/') :
    (Path.join base rest).toList.head? = base.toList.head? := by
  have hne : base.toList ≠ [] := by simpa using hbase
  unfold Path.join
  rw [if_neg hrest, if_neg hbase]
  split <;> simp [List.head?_append_of_ne_nil _ hne]

/-- A path behind a directory leads on from the directory. -/
theorem pathLeads_join (h : tree.PathLeads path d) (hd : tree.node? d = some .directory)
    {rest : String} (hrest : rest.toList.head? ≠ some '/') :
    tree.PathLeads (Path.join path rest) e ↔ tree.Leads d (Text.split '/' rest) e := by
  obtain ⟨hpath, h⟩ := h
  have hhead := head?_join hpath hrest
  have hne : Path.join path rest ≠ "" := by
    intro hempty
    rw [hempty] at hhead
    exact hpath (by simpa using hhead.symm)
  have horigin : origin (Path.join path rest) tree.working = origin path tree.working := by
    rw [origin, hhead, origin]
  rw [PathLeads, horigin, ← leads_append h hd, and_iff_right hne]
  obtain hjoin | ⟨names, hnames, hjoin⟩ := Path.split_join hpath hrest
  · rw [hjoin]
  · rw [hjoin, hnames, List.append_assoc, List.singleton_append, Leads, Leads]
    simp only [walk_append_empty (Text.split_ne_nil '/' rest)]

/-- Asking for a path finds what it leads to: it leads there within the limit on links. -/
def Answers (tree : FileTree) (path : String) : Prop :=
  ∀ location, tree.PathLeads path location → tree.resolve? path = some location

theorem answers_of_isSome (h : (tree.resolve? path).isSome) : tree.Answers path := by
  obtain ⟨d, hd⟩ := Option.isSome_iff_exists.1 h
  intro e he
  rw [hd, (pathLeads_of_resolve? hd).unique he]

theorem pathLeads_of_directory? (h : tree.directory? path = some d) :
    tree.PathLeads path d ∧ tree.node? d = some .directory := by
  obtain ⟨hresolve, hnode⟩ := Option.filter_eq_some_iff.1 h
  exact ⟨pathLeads_of_resolve? hresolve, by simpa using hnode⟩

theorem directory?_of_resolve? (h : tree.resolve? path = some d)
    (hd : tree.node? d = some .directory) : tree.directory? path = some d := by
  rw [directory?, h, Option.filter_some, hd]
  rfl

theorem directory?_eq_none_of_resolve? (h : tree.resolve? path = some d)
    (hd : tree.node? d ≠ some .directory) : tree.directory? path = none := by
  rw [directory?, h, Option.filter_some]
  exact if_neg (by simpa using hd)

theorem Answers.directory?_eq_some_iff (h : tree.Answers path) :
    tree.directory? path = some d ↔ tree.PathLeads path d ∧ tree.node? d = some .directory :=
  ⟨pathLeads_of_directory?, fun ⟨hpath, hnode⟩ => directory?_of_resolve? (h d hpath) hnode⟩

theorem bytes?_eq_some_iff {bytes : List UInt8} : tree.bytes? path = some bytes ↔
    ∃ e, tree.resolve? path = some e ∧ tree.node? e = some (.file bytes) := by
  unfold bytes?
  split
  · next hnode =>
    obtain ⟨e, he, hnode⟩ := Option.bind_eq_some_iff.1 hnode
    constructor
    · intro h
      cases h
      exact ⟨e, he, hnode⟩
    · rintro ⟨e', he', hnode'⟩
      cases he.symm.trans he'
      cases hnode.symm.trans hnode'
      rfl
  · next hother =>
    refine ⟨nofun, ?_⟩
    rintro ⟨e, he, hnode⟩
    exact absurd (Option.bind_eq_some_iff.2 ⟨e, he, hnode⟩) (hother bytes)

theorem Answers.bytes?_eq_some_iff (h : tree.Answers path) {bytes : List UInt8} :
    tree.bytes? path = some bytes ↔
      ∃ e, tree.PathLeads path e ∧ tree.node? e = some (.file bytes) := by
  rw [FileTree.bytes?_eq_some_iff]
  refine exists_congr fun e => and_congr_left fun _ => ?_
  exact ⟨pathLeads_of_resolve?, h e⟩

theorem bytes?_of_directory? (h : tree.directory? path = some d) : tree.bytes? path = none := by
  obtain ⟨hresolve, hnode⟩ := Option.filter_eq_some_iff.1 h
  refine Option.eq_none_iff_forall_ne_some.2 fun bytes hbytes => ?_
  obtain ⟨e, he, hfile⟩ := bytes?_eq_some_iff.1 hbytes
  cases hresolve.symm.trans he
  simp [hfile] at hnode

/-- A table of paths says where they lead. -/
def Charted (tree : FileTree) (paths : List (String × Location)) : Prop :=
  ∀ entry ∈ paths, tree.resolve? entry.1 = some entry.2

namespace Charted

variable {paths : List (String × Location)}

theorem directory (hc : tree.Charted paths) (h : (path, d) ∈ paths)
    (hd : tree.node? d = some .directory) : tree.directory? path = some d :=
  directory?_of_resolve? (hc _ h) hd

theorem notDirectory (hc : tree.Charted paths) (h : (path, d) ∈ paths)
    (hd : tree.node? d ≠ some .directory) : tree.directory? path = none :=
  directory?_eq_none_of_resolve? (hc _ h) hd

theorem bytes (hc : tree.Charted paths) {contents : List UInt8} (h : (path, d) ∈ paths)
    (hd : tree.node? d = some (.file contents)) : tree.bytes? path = some contents :=
  bytes?_eq_some_iff.2 ⟨d, hc _ h, hd⟩

end Charted

end FileTree

end ClassLoading
