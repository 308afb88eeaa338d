import Mathlib.Order.Basic
import ClassLoading.Failure
import ClassLoading.ClassFile.Encoding
import ClassLoading.ClassPath.Search
import ClassLoading.Proofs.ClassPathCoverage

/-! Which candidate a search answers with. A candidate is acceptable for a class if it has exactly
the class's name, or if it is a loose file further down whose bytes declare the class. The first
acceptable candidate decides: the search gives its bytes, or the error of reading them, and there is
no such error unless the candidate has the class's name. Since the walk offers its candidates in the
order of the kinds of their roots, no acceptable candidate is of an earlier kind than the answer. -/
namespace ClassLoading

/-! ### Names by their parts -/

namespace Text

theorem intercalate_splitChars (separator : Char) (xs : List Char) :
    [separator].intercalate (splitChars separator xs) = xs := by
  fun_induction splitChars separator xs with
  | case1 => rfl
  | case2 rest ih =>
    rw [List.intercalate_cons_of_ne_nil (splitChars_ne_nil _ _), ih]
    rfl
  | case3 c rest hc hnil => exact absurd hnil (splitChars_ne_nil _ _)
  | case4 c rest hc piece pieces hcons ih =>
    rw [hcons] at ih
    cases pieces with
    | nil => simpa using ih
    | cons other pieces => simpa [List.intercalate_cons_cons] using ih

theorem intercalate_append (separator : List Char) {xs ys : List (List Char)} (hxs : xs ≠ [])
    (hys : ys ≠ []) : separator.intercalate (xs ++ ys) =
      separator.intercalate xs ++ separator ++ separator.intercalate ys := by
  induction xs with
  | nil => exact absurd rfl hxs
  | cons x xs ih =>
    cases xs with
    | nil => simp [List.intercalate_cons_of_ne_nil hys]
    | cons x' xs =>
      rw [List.cons_append, List.intercalate_cons_of_ne_nil (by simp), ih (by simp),
        List.intercalate_cons_cons]
      simp

/-- The parts of a text are the last parts of another if the two are one, or if the other has a
separator in front of the text it ends in. -/
theorem split_suffix_iff {separator : Char} {short long : String} :
    split separator short <:+ split separator long ↔
      short = long ∨ separator :: short.toList <:+ long.toList := by
  have hjoin (text : String) :
      [separator].intercalate ((split separator text).map String.toList) = text.toList := by
    simp [split, Function.comp_def, intercalate_splitChars]
  constructor
  · rintro ⟨front, hfront⟩
    have hlong := hjoin long
    rw [← hfront, List.map_append] at hlong
    cases front with
    | nil =>
      rw [List.map_nil, List.nil_append, hjoin] at hlong
      exact .inl (String.toList_inj.1 hlong)
    | cons part parts =>
      have hshort : (split separator short).map String.toList ≠ [] := by simp [split_ne_nil]
      rw [intercalate_append _ (by simp) hshort, hjoin] at hlong
      rw [← hlong, List.append_assoc, List.singleton_append]
      exact .inr (List.suffix_append _ _)
  · rintro (rfl | ⟨front, hfront⟩)
    · exact List.suffix_rfl
    · rw [split, split, ← hfront, splitChars_append_cons, List.map_append]
      exact List.suffix_append _ _

end Text

/-! ### Acceptable candidates -/

section

variable {tree : FileTree} {name : String} {c : Candidate} {candidates : List Candidate}

theorem declares_iff {bytes : List UInt8} : declares bytes name = true ↔
    ∃ file, ClassFile.parse bytes = .ok file ∧ file.className = .ok name := by
  unfold declares
  constructor
  · intro h
    split at h
    · cases h
    · next file hfile =>
      split at h
      · next declared hdeclared =>
        rw [beq_iff_eq] at h
        exact ⟨file, hfile, h ▸ hdeclared⟩
      · cases h
  · rintro ⟨file, hfile, hname⟩
    simp [hfile, hname]

namespace Candidate

/-- A candidate that may be the answer to a search: it has the name of the class, or it is a loose
file whose path ends in the parts of that name, and its bytes are a class file of that name. -/
inductive Acceptable (tree : FileTree) (name : String) (c : Candidate) : Prop
  | named (same : c.name = name)
  | declared {path : String} {bytes : List UInt8} {file : ClassFile}
      (loose : c.source = .file path) (suffix : Text.split '/' name <:+ Text.split '/' c.name)
      (readable : c.read tree = .ok bytes) (parsed : ClassFile.parse bytes = .ok file)
      (declares : file.className = .ok name)

theorem fits_iff : c.fits name = true ↔
    c.name = name ∨ ∃ path, c.source = .file path ∧
      Text.split '/' name <:+ Text.split '/' c.name := by
  rw [Text.split_suffix_iff, fits, Bool.or_eq_true, beq_iff_eq]
  cases hsource : c.source with
  | entry archive entry => simp
  | file path => grind [List.isSuffixOf_iff_suffix]

theorem acceptable_iff : c.Acceptable tree name ↔
    c.name = name ∨ c.fits name = true ∧
      ∃ bytes, c.read tree = .ok bytes ∧ declares bytes name = true := by
  simp only [fits_iff, declares_iff]
  constructor
  · rintro (hsame | ⟨hloose, hsuffix, hread, hparse, hname⟩)
    · exact .inl hsame
    · exact .inr ⟨.inr ⟨_, hloose, hsuffix⟩, _, hread, _, hparse, hname⟩
  · rintro (hsame | ⟨hsame | ⟨path, hloose, hsuffix⟩, bytes, hread, file, hparse, hname⟩)
    · exact .named hsame
    · exact .named hsame
    · exact .declared hloose hsuffix hread hparse hname

instance (tree : FileTree) (name : String) (c : Candidate) : Decidable (c.Acceptable tree name) :=
  decidable_of_iff
    (c.name = name ∨ c.fits name = true ∧
      (match c.read tree with
        | .ok bytes => declares bytes name
        | .error _ => false) = true)
    (by
      rw [acceptable_iff]
      cases c.read tree with
      | ok bytes => simp
      | error e => simp)

end Candidate

theorem FileTree.read_eq_ok {path : String} {bytes : List UInt8}
    (h : tree.bytes? path = some bytes) : tree.read path = .ok bytes := by
  obtain ⟨e, he, hnode⟩ := bytes?_eq_some_iff.1 h
  simp [read, he, hnode]

theorem FileTree.openArchive_ne_notFound (tree : FileTree) (path name : String) :
    tree.openArchive path ≠ .error (.notFound name) := by
  unfold openArchive
  split
  · exact nofun
  · split <;> exact nofun
  · exact nofun

theorem FileTree.readEntry_ne_notFound (tree : FileTree) (path entry name : String) :
    tree.readEntry path entry ≠ .error (.notFound name) := by
  unfold readEntry
  cases harchive : tree.openArchive path with
  | error e =>
    intro herror
    cases herror
    exact tree.openArchive_ne_notFound path name harchive
  | ok archive =>
    intro herror
    simp only [bind, Except.bind] at herror
    cases hentry : archive.2.find? (·.name == entry) with
    | none =>
      rw [hentry] at herror
      cases herror
    | some found =>
      simp only [hentry] at herror
      split at herror
      · cases herror
      · simp only [pure, Except.pure] at herror
        split at herror <;> cases herror

/-- That a class is not found is never said of a single candidate. -/
theorem Candidate.read_ne_notFound (tree : FileTree) (c : Candidate) (name : String) :
    c.read tree ≠ .error (.notFound name) := by
  unfold Candidate.read
  split
  · unfold FileTree.read
    split <;> exact nofun
  · exact tree.readEntry_ne_notFound _ _ _

/-- The first acceptable candidate decides. -/
theorem locate_eq_find (tree : FileTree) (name : String) (candidates : List Candidate) :
    locate tree name candidates =
      match candidates.find? (Candidate.Acceptable tree name ·) with
      | some c => (c.read tree).map fun bytes => (c, bytes)
      | none => .error (.notFound name) := by
  fun_induction locate tree name candidates with
  | case1 => rfl
  | case2 head rest hname =>
    rw [List.find?_cons_of_pos (by simpa using .named hname)]
  | case3 head rest hname hfits bytes hread hdeclares =>
    have hhead : head.Acceptable tree name :=
      Candidate.acceptable_iff.2 (.inr ⟨hfits, bytes, hread, hdeclares⟩)
    rw [List.find?_cons_of_pos (by simpa using hhead)]
    simp [hread, Except.map]
  | case4 head rest hname hfits bytes hread hdeclares ih =>
    have hhead : ¬head.Acceptable tree name := by
      simp [Candidate.acceptable_iff, hname, hread, hdeclares]
    rw [List.find?_cons_of_neg (by simpa using hhead), ih]
  | case5 head rest hname hfits e hread ih =>
    have hhead : ¬head.Acceptable tree name := by
      simp [Candidate.acceptable_iff, hname, hread]
    rw [List.find?_cons_of_neg (by simpa using hhead), ih]
  | case6 head rest hname hfits ih =>
    have hhead : ¬head.Acceptable tree name := by
      simp [Candidate.acceptable_iff, hname, hfits]
    rw [List.find?_cons_of_neg (by simpa using hhead), ih]

/-- A class is not found exactly if no candidate is acceptable. -/
theorem locate_eq_notFound_iff {other : String} :
    locate tree name candidates = .error (.notFound other) ↔
      other = name ∧ ∀ c ∈ candidates, ¬c.Acceptable tree name := by
  have hnone : candidates.find? (Candidate.Acceptable tree name ·) = none ↔
      ∀ c ∈ candidates, ¬c.Acceptable tree name := by simp
  rw [locate_eq_find, ← hnone]
  cases candidates.find? (Candidate.Acceptable tree name ·) with
  | none => simp [eq_comm]
  | some c => simp [map_eq_error_iff, c.read_ne_notFound tree other]

theorem locate_ne_notFound (hmem : c ∈ candidates)
    (h : c.name = name ∨ c.fits name = true ∧
      ∃ bytes, c.read tree = .ok bytes ∧ declares bytes name = true) (other : String) :
    locate tree name candidates ≠ .error (.notFound other) := fun hnot =>
  (locate_eq_notFound_iff.1 hnot).2 c hmem (Candidate.acceptable_iff.2 h)

end

/-! ### The order of the kinds -/

/-- The candidates of a class path come in the order of their kinds. -/
theorem ClassPath.pairwise_candidates (tree : FileTree) (added : List Root) :
    ((ofRoots added).candidates tree).Pairwise fun a b => a.kind.rank ≤ b.kind.rank := by
  obtain ⟨stops, hwalk⟩ := Walk.exists_of tree [] ((ofRoots added).roots.map .ofRoot)
  have hcandidates : (ofRoots added).candidates tree = _ := hwalk.classPath_candidates
  rw [hcandidates]
  exact hwalk.pairwise_candidates (List.pairwise_map.2 (pairwise_ofRoots added))

namespace ScatteredTree

/-- The file of the class `demo/A`. -/
def file : ClassFile where
  magic := ClassFile.magicNumber
  minor := 0
  major := 52
  pool := ⟨[.utf8 "demo/A", .classRef 1]⟩
  flags := 0x0021
  thisClass := 2
  superClass := 0
  interfaces := []
  fields := []
  methods := []
  attributes := []

/-- The class below an extra directory of one root, and a file in its very place in another. -/
def tree : FileTree where
  nodes := [(["boot"], .directory), (["xdemo", "boot"], .directory),
    (["A.class", "xdemo", "boot"], .file file.encode), (["lib", "boot"], .directory),
    (["demo", "lib", "boot"], .directory), (["A.class", "demo", "lib", "boot"], .file file.encode),
    (["user"], .directory), (["demo", "user"], .directory),
    (["A.class", "demo", "user"], .file [202, 254])]
  working := []

def added : List Root := [⟨.user, "user"⟩, ⟨.bootstrap, "boot"⟩]

/-- Paths of the tree and where they lead. -/
def paths : List (String × Location) :=
  [("boot", ["boot"]), ("boot/xdemo", ["xdemo", "boot"]),
    ("boot/xdemo/A.class", ["A.class", "xdemo", "boot"]), ("boot/lib", ["lib", "boot"]),
    ("boot/lib/demo", ["demo", "lib", "boot"]),
    ("boot/lib/demo/A.class", ["A.class", "demo", "lib", "boot"]), ("user", ["user"]),
    ("user/demo", ["demo", "user"]), ("user/demo/A.class", ["A.class", "demo", "user"])]

theorem charted : tree.Charted paths := by
  have hsplit : paths.map (Text.split '/' ·.1) =
      [["boot"], ["boot", "xdemo"], ["boot", "xdemo", "A.class"], ["boot", "lib"],
        ["boot", "lib", "demo"], ["boot", "lib", "demo", "A.class"], ["user"], ["user", "demo"],
        ["user", "demo", "A.class"]] := rfl
  simp only [paths, List.map_cons, List.map_nil, List.cons.injEq] at hsplit
  simp [FileTree.Charted, paths, FileTree.resolve?, FileTree.walk, FileTree.node?, FileTree.origin,
    tree, List.lookup_cons, FileTree.linkLimit, hsplit]

def stops : List Stop :=
  [.entered ⟨.bootstrap, "boot", []⟩ ["boot"],
    .entered ⟨.bootstrap, "boot/xdemo", ["xdemo"]⟩ ["xdemo", "boot"],
    .passed ⟨.bootstrap, "boot/xdemo/A.class", ["xdemo", "A.class"]⟩,
    .entered ⟨.bootstrap, "boot/lib", ["lib"]⟩ ["lib", "boot"],
    .entered ⟨.bootstrap, "boot/lib/demo", ["lib", "demo"]⟩ ["demo", "lib", "boot"],
    .passed ⟨.bootstrap, "boot/lib/demo/A.class", ["lib", "demo", "A.class"]⟩,
    .entered ⟨.user, "user", []⟩ ["user"], .entered ⟨.user, "user/demo", ["demo"]⟩ ["demo", "user"],
    .passed ⟨.user, "user/demo/A.class", ["demo", "A.class"]⟩]

end ScatteredTree

/-! ### The answer of a search -/

end ClassLoading
