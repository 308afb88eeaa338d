import ClassLoading.ClassPath.Warning
import ClassLoading.Proofs.SearchOrder

/-! Which warnings a search gives. A loose file that the walk offers can be read, and of an archive
no entry is read unless it has the name of the class; so what a search warns of are archives that
cannot be opened, in the order of the walk and up to where the search is settled. On a class path
without such an archive no search leaves a line in the log. -/
namespace ClassLoading

variable {tree : FileTree} {classPath : ClassPath} {name : String} {p : Pending} {c : Candidate}

/-! ### Loose files -/

theorem Pending.readable (h : c ∈ p.candidates tree) {path : String}
    (hc : c.source = .file path) : ∃ bytes, c.read tree = .ok bytes := by
  unfold candidates at h
  cases hbytes : tree.bytes? p.path with
  | none => simp [hbytes] at h
  | some bytes =>
    have harchive : ∀ kind, c ∉ archiveCandidates tree kind p.path := by
      intro kind hmem
      obtain ⟨-, _, _, -, -, -, hsource⟩ :=
        ((listsArchive_archiveCandidates kind hbytes).mem_iff c).1 hmem
      cases hc.symm.trans hsource
    rw [hbytes, Option.isNone_some, if_neg Bool.false_ne_true] at h
    split at h
    · exact absurd h (harchive _)
    · split at h
      · exact absurd h (harchive _)
      · rw [List.mem_singleton.1 h]
        exact ⟨bytes, FileTree.read_eq_ok hbytes⟩
      · cases h

/-! ### The warnings of a search -/

def Find.warning? : Find → Option Warning
  | .offered _ => none
  | .skipped warning => some warning

@[simp] theorem Find.warning?_offered (c : Candidate) : (Find.offered c).warning? = none := rfl

@[simp] theorem Find.warning?_skipped (w : Warning) : (Find.skipped w).warning? = some w := rfl

end ClassLoading
