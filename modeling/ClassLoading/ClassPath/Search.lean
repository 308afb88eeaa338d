import ClassLoading.ClassFile.Format
import ClassLoading.ClassPath.Walk

/-! Finding the bytes of a class by its name. A search knows finitely many names: outside of `names`
it never succeeds, which is what bounds the work of a loader. -/
namespace ClassLoading

structure ClassSearch where
  find : String → Except SearchError (List UInt8)
  names : List String
  mem_names : ∀ name bytes, find name = .ok bytes → name ∈ names

/-- Whether some bytes are a class file of the named class. -/
def declares (bytes : List UInt8) (name : String) : Bool :=
  match ClassFile.parse bytes with
  | .error _ => false
  | .ok file => match file.className with
    | .ok declared => declared == name
    | .error _ => false

/-- The first candidate for a class, with its bytes. One that has the class's exact name decides the
search, readable or not; one that only ends in it must be readable and declare the class. -/
def locate (tree : FileTree) (name : String) :
    List Candidate → Except SearchError (Candidate × List UInt8)
  | [] => .error (.notFound name)
  | candidate :: rest =>
    if candidate.name = name then (candidate.read tree).map fun bytes => (candidate, bytes)
    else if candidate.fits name then
      match candidate.read tree with
      | .ok bytes => if declares bytes name then .ok (candidate, bytes) else locate tree name rest
      | .error _ => locate tree name rest
    else locate tree name rest

theorem locate_fits {tree : FileTree} {name : String} {candidates : List Candidate}
    {candidate : Candidate} {bytes : List UInt8}
    (h : locate tree name candidates = .ok (candidate, bytes)) :
    candidate ∈ candidates ∧ candidate.fits name = true := by
  fun_induction locate tree name candidates with
  | case1 => simp at h
  | case2 head rest hname =>
    cases hr : head.read tree with
    | error e => simp [hr, Except.map] at h
    | ok b =>
      simp only [hr, Except.map, Except.ok.injEq, Prod.mk.injEq] at h
      exact ⟨by simp [h.1], by simp [← h.1, Candidate.fits, hname]⟩
  | case3 head rest _ hfits b _ _ =>
    simp only [Except.ok.injEq, Prod.mk.injEq] at h
    exact ⟨by simp [h.1], by rw [← h.1]; exact hfits⟩
  | case4 _ _ _ _ _ _ _ ih => exact ⟨List.mem_cons_of_mem _ (ih h).1, (ih h).2⟩
  | case5 _ _ _ _ _ _ ih => exact ⟨List.mem_cons_of_mem _ (ih h).1, (ih h).2⟩
  | case6 _ _ _ _ ih => exact ⟨List.mem_cons_of_mem _ (ih h).1, (ih h).2⟩

/-- Every text that a text ends in. -/
def endings (text : String) : List String :=
  (List.range (text.length + 1)).map fun n => String.ofList (text.toList.drop n)

theorem mem_endings {text ending : String} (h : ending.toList <:+ text.toList) :
    ending ∈ endings text := by
  have hd := List.suffix_iff_eq_drop.1 h
  refine List.mem_map.2 ⟨text.toList.length - ending.toList.length, ?_, ?_⟩
  · simp only [String.length_toList, List.mem_range]
    omega
  · rw [← hd, String.ofList_toList]

theorem Candidate.mem_endings_of_fits {candidate : Candidate} {name : String}
    (h : candidate.fits name = true) : name ∈ endings candidate.name := by
  unfold fits at h
  rcases Bool.or_eq_true_iff.1 h with h | h
  · rw [beq_iff_eq.1 h]
    exact mem_endings (List.suffix_refl _)
  · split at h
    · cases h
    · exact mem_endings ((List.suffix_cons '/' name.toList).trans (List.isSuffixOf_iff_suffix.1 h))

namespace ClassSearch

/-- The search of a class path in a file tree. -/
def disk (tree : FileTree) (classPath : ClassPath) : ClassSearch where
  find name := (locate tree name (classPath.candidates tree)).map (·.2)
  names := (classPath.candidates tree).flatMap fun candidate => endings candidate.name
  mem_names name bytes h := by
    cases hl : locate tree name (classPath.candidates tree) with
    | error e => simp [hl, Except.map] at h
    | ok r =>
      obtain ⟨hm, hf⟩ := locate_fits hl
      exact List.mem_flatMap.2 ⟨r.1, hm, Candidate.mem_endings_of_fits hf⟩

/-- Class files held by name; of two with one name the later counts. The `broken` names fail. -/
def memory (classes : List (String × List UInt8)) (broken : List String) : ClassSearch where
  find name :=
    if name ∈ broken then .error (.unreadable name .broken)
    else match classes.reverse.lookup name with
      | some bytes => .ok bytes
      | none => .error (.notFound name)
  names := classes.map (·.1)
  mem_names name bytes h := by
    split at h
    · cases h
    · split at h
      · next found hl =>
        obtain ⟨l₁, l₂, hr, _⟩ := List.lookup_eq_some_iff.1 hl
        have hm : (name, found) ∈ classes := by
          rw [← List.mem_reverse, hr]
          simp
        exact List.mem_map.2 ⟨_, hm, rfl⟩
      · cases h

end ClassSearch

end ClassLoading
