import Mathlib.Data.Finset.Card
import Mathlib.Logic.Relation
import Mathlib.Order.WellFoundedSet
import ClassLoading.Loader.Threads

/-! The graph of the threads that wait for one another. A thread that waits for a class is blocked
by the thread that loads the class, if there is one on record. The chain of blocking threads that
is followed before a wait is granted is long enough to meet every thread on it, so that a granted
wait closes no circle; and nothing else that happens to the table does, provided that a thread
takes a class only while it does not wait itself. -/
namespace ClassLoading

theorem lookup_filter_self {α β : Type} [BEq α] [LawfulBEq α] (l : List (α × β)) (a : α) :
    (l.filter (·.1 != a)).lookup a = none := by
  rw [List.lookup_eq_none_iff]
  intro entry he
  have hne := List.of_mem_filter he
  rw [bne_iff_ne] at hne ⊢
  exact hne.symm

namespace InFlight

variable {table table' : InFlight} {me thread other : ThreadId} {name : String}

/-- The other thread loads the class that a thread waits for. -/
def Blocks (table : InFlight) (other thread : ThreadId) : Prop :=
  table.blocker? thread = some other

/-- From a waiting thread to the one it waits for, any number of times. -/
def Reaches (table : InFlight) : ThreadId → ThreadId → Prop :=
  Relation.ReflTransGen fun thread other => table.Blocks other thread

/-- Every chain of blocked threads ends. -/
def Acyclic (table : InFlight) : Prop := WellFounded table.Blocks

/-! ### The table after each operation -/

theorem owner?_start (table : InFlight) (me : ThreadId) (name n : String) :
    (table.start me name).owner? n = if n = name then some me else table.owner? n := by
  unfold owner? start
  by_cases hn : n = name
  · simp [hn]
  · have hb : (n == name) = false := by simpa using hn
    rw [if_neg hn, List.lookup_cons, hb]
    exact lookup_filter_ne fun b _ => by simpa using hn

theorem owner?_finish (table : InFlight) (name n : String) :
    (table.finish name).owner? n = if n = name then none else table.owner? n := by
  unfold owner? finish
  by_cases hn : n = name
  · rw [if_pos hn, hn, lookup_filter_self]
  · rw [if_neg hn]
    exact lookup_filter_ne fun b _ => by simpa using hn

theorem lookup_stopWaiting (table : InFlight) (me thread : ThreadId) :
    (table.stopWaiting me).waiting.lookup thread =
      if thread = me then none else table.waiting.lookup thread := by
  unfold stopWaiting
  by_cases ht : thread = me
  · rw [if_pos ht, ht, lookup_filter_self]
  · rw [if_neg ht]
    exact lookup_filter_ne fun b _ => by simpa using ht

/-! ### Chains -/

/-- The thread that so many links lead to, from the first thread of a chain. -/
def follow (table : InFlight) (first : Option ThreadId) : Nat → Option ThreadId
  | 0 => first
  | links + 1 => (table.follow first links).bind table.blocker?

theorem follow_add (table : InFlight) (first : Option ThreadId) (n m : Nat) :
    table.follow first (n + m) = table.follow (table.follow first n) m := by
  induction m with
  | zero => rfl
  | succ m ih => rw [← Nat.add_assoc, follow, ih, follow]

theorem follow_none (table : InFlight) (n : Nat) : table.follow none n = none := by
  induction n with
  | zero => rfl
  | succ n ih => simp [follow, ih]

/-- The walk along a chain that stops after a number of threads meets those that fewer links lead
to. -/
theorem leadsTo_iff {n : Nat} {first : Option ThreadId} :
    table.leadsTo me n first = true ↔ ∃ links < n, table.follow first links = some me := by
  induction n generalizing first with
  | zero => simp [leadsTo]
  | succ n ih =>
    cases first with
    | none => simp [leadsTo, follow_none]
    | some current =>
      have hnext (links : Nat) : table.follow (some current) (links + 1) =
          table.follow (table.blocker? current) links := by
        rw [Nat.add_comm, follow_add]
        rfl
      rw [leadsTo, Bool.or_eq_true, beq_iff_eq, ih]
      constructor
      · rintro (rfl | ⟨links, hlt, hlinks⟩)
        · exact ⟨0, by omega, rfl⟩
        · exact ⟨links + 1, by omega, (hnext links).trans hlinks⟩
      · rintro ⟨links, hlt, hlinks⟩
        cases links with
        | zero => exact .inl (Option.some.inj hlinks)
        | succ links => exact .inr ⟨links, by omega, (hnext links).symm.trans hlinks⟩

theorem exists_waiting_of_follow_succ {first : Option ThreadId} {n : Nat}
    (h : table.follow first (n + 1) ≠ none) :
    ∃ entry ∈ table.waiting, table.follow first n = some entry.1 := by
  obtain ⟨other, hother⟩ := Option.ne_none_iff_exists'.1 h
  obtain ⟨thread, hthread, hblocker⟩ := Option.bind_eq_some_iff.1 hother
  obtain ⟨name, hname, -⟩ := Option.bind_eq_some_iff.1 hblocker
  obtain ⟨before, after, heq, -⟩ := List.lookup_eq_some_iff.1 hname
  exact ⟨(thread, name), by simp [heq], hthread⟩

/-- Until a chain first comes to a thread, it passes no thread twice: it could leave out all that
lies between. -/
theorem follow_injOn {first : Option ThreadId} {n : Nat} (hn : table.follow first n = some me)
    (hfirst : ∀ m < n, table.follow first m ≠ some me) :
    Set.InjOn (table.follow first) (Set.Iio n) := by
  have hne : ∀ i j, i < j → j < n → table.follow first i ≠ table.follow first j := by
    intro i j hij hj hsame
    refine hfirst (i + (n - j)) (by omega) ?_
    rw [follow_add, hsame, ← follow_add, Nat.add_sub_cancel' hj.le, hn]
  intro i hi j hj hsame
  rcases Nat.lt_trichotomy i j with hij | hij | hij
  · exact absurd hsame (hne i j hij hj)
  · exact hij
  · exact absurd hsame.symm (hne j i hij hi)

/-- Whoever a chain leads to at all, it leads to by no more links than there are waiting threads,
since these are all that it can pass. -/
theorem exists_follow_le {first : Option ThreadId} (h : ∃ n, table.follow first n = some me) :
    ∃ n ≤ table.waiting.length, table.follow first n = some me := by
  have hn := Nat.find_spec h
  have hfirst : ∀ m < Nat.find h, table.follow first m ≠ some me := fun m => Nat.find_min h
  generalize Nat.find h = n at hn hfirst
  refine ⟨n, ?_, hn⟩
  have hpassed : ∀ m < n, table.follow first m ∈ (table.waiting.map (some ·.1)).toFinset := by
    intro m hm
    have hsome : table.follow first (m + 1) ≠ none := by
      intro hnone
      obtain ⟨rest, rfl⟩ := Nat.exists_eq_add_of_lt hm
      rw [Nat.add_right_comm, follow_add, hnone, follow_none] at hn
      cases hn
    obtain ⟨entry, hentry, hthread⟩ := exists_waiting_of_follow_succ hsome
    simpa [hthread] using ⟨entry.2, hentry⟩
  have hinj : Set.InjOn (table.follow first) (Finset.range n) := by
    simpa using follow_injOn hn hfirst
  calc n = (Finset.range n).card := (Finset.card_range n).symm
    _ ≤ (table.waiting.map (some ·.1)).toFinset.card :=
      Finset.card_le_card_of_injOn _ (fun m hm => hpassed m (by simpa using hm)) hinj
    _ ≤ (table.waiting.map (some ·.1)).length := List.toFinset_card_le _
    _ = table.waiting.length := List.length_map _

theorem reaches_iff : table.Reaches thread other ↔
    ∃ links, table.follow (some thread) links = some other := by
  constructor
  · intro h
    induction h with
    | refl => exact ⟨0, rfl⟩
    | tail _ hb ih =>
      obtain ⟨links, hlinks⟩ := ih
      exact ⟨links + 1, Option.bind_eq_some_iff.2 ⟨_, hlinks, hb⟩⟩
  · rintro ⟨links, h⟩
    induction links generalizing other with
    | zero =>
      cases h
      exact .refl
    | succ links ih =>
      obtain ⟨between, hlinks, hb⟩ := Option.bind_eq_some_iff.1 h
      exact .tail (ih hlinks) hb

/-- A table holds finitely many threads, so that chains end unless one of them is a circle. -/
theorem acyclic_iff : table.Acyclic ↔ ∀ thread, ¬Relation.TransGen table.Blocks thread thread := by
  constructor
  · exact fun h thread => h.transGen.irrefl.irrefl thread
  · intro h
    have : IsStrictOrder ThreadId (Relation.TransGen table.Blocks) :=
      { irrefl := h, trans := fun _ _ _ => .trans }
    let known : Finset ThreadId := (table.waiting.map (·.1) ++ table.owners.map (·.2)).toFinset
    have hknown := Set.wellFoundedOn_iff.1
      (known.wellFoundedOn (r := Relation.TransGen table.Blocks))
    refine Subrelation.wf (fun {other thread} hb => ⟨.single hb, ?_⟩) hknown
    obtain ⟨name, hname, howner⟩ := Option.bind_eq_some_iff.1 hb
    obtain ⟨_, _, hwaiting, -⟩ := List.lookup_eq_some_iff.1 hname
    obtain ⟨_, _, howners, -⟩ := List.lookup_eq_some_iff.1 howner
    simp [known, hwaiting, howners]

/-! ### Waits -/

/-- A wait is refused exactly if the chain of its class leads back to the thread. -/
theorem waitFor_eq_error_iff : table.waitFor me name = .error (.circular name) ↔
    ∃ links, table.follow (table.owner? name) links = some me := by
  have hleads : table.leadsTo me (table.waiting.length + 1) (table.owner? name) = true ↔
      ∃ links, table.follow (table.owner? name) links = some me := by
    rw [leadsTo_iff]
    refine ⟨fun ⟨links, _, h⟩ => ⟨links, h⟩, fun h => ?_⟩
    obtain ⟨links, hle, hlinks⟩ := exists_follow_le h
    exact ⟨links, by omega, hlinks⟩
  rw [← hleads, waitFor]
  split
  · next hback => simp [hback]
  · next hfree => simp [hfree]

-- two threads that wait for each other are no reason to refuse a third
example : (waitFor ⟨[("demo/A", 1), ("demo/B", 2)], [(1, "demo/B"), (2, "demo/A")]⟩ 0
    "demo/A").isOk = true := by decide

theorem waitFor_eq_error {e : LoadError} (hw : table.waitFor me name = .error e) :
    e = .circular name := by
  unfold waitFor at hw
  split at hw <;> cases hw
  rfl

/-- A granted wait is on record, and nothing that it waits for waits for the thread. -/
theorem waitFor_eq_ok (hw : table.waitFor me name = .ok table') :
    table' = { table with waiting := (me, name) :: table.waiting.filter (·.1 != me) } ∧
      ∀ owner, table.owner? name = some owner → ¬table.Reaches owner me := by
  constructor
  · unfold waitFor at hw
    split at hw <;> cases hw
    rfl
  · intro owner howner hr
    rw [reaches_iff, ← howner] at hr
    rw [waitFor_eq_error_iff.2 hr] at hw
    cases hw

/-- No thread is let wait for a class that it loads itself. -/
theorem waitFor_own (h : table.owner? name = some me) :
    table.waitFor me name = .error (.circular name) := by
  simp [waitFor, h, leadsTo]

theorem lookup_waitFor (thread : ThreadId) :
    ((me, name) :: table.waiting.filter (·.1 != me)).lookup thread =
      if thread = me then some name else table.waiting.lookup thread := by
  by_cases ht : thread = me
  · simp [ht]
  · have hb : (thread == me) = false := by simpa using ht
    rw [if_neg ht, List.lookup_cons, hb]
    exact lookup_filter_ne fun b _ => by simpa using ht

/-! ### What keeps chains finite -/

theorem acyclic_empty : empty.Acyclic := ⟨fun thread => ⟨thread, nofun⟩⟩

theorem Acyclic.finish (h : table.Acyclic) (name : String) : (table.finish name).Acyclic := by
  refine Subrelation.wf (fun {other thread} hb => ?_) h
  obtain ⟨n, hn, ho⟩ := Option.bind_eq_some_iff.1 hb
  rw [owner?_finish] at ho
  split at ho
  · cases ho
  · exact Option.bind_eq_some_iff.2 ⟨n, hn, ho⟩

theorem Acyclic.stopWaiting (h : table.Acyclic) (me : ThreadId) :
    (table.stopWaiting me).Acyclic := by
  refine Subrelation.wf (fun {other thread} hb => ?_) h
  obtain ⟨n, hn, ho⟩ := Option.bind_eq_some_iff.1 hb
  rw [lookup_stopWaiting] at hn
  split at hn
  · cases hn
  · exact Option.bind_eq_some_iff.2 ⟨n, hn, ho⟩

/-- A thread that does not wait ends every chain that comes to lead to it. -/
theorem Acyclic.start (h : table.Acyclic) (hme : table.waiting.lookup me = none) (name : String) :
    (table.start me name).Acyclic := by
  have hend : Acc (table.start me name).Blocks me := by
    refine ⟨me, fun other hb => ?_⟩
    obtain ⟨n, hn, -⟩ := Option.bind_eq_some_iff.1 hb
    have hn : table.waiting.lookup me = some n := hn
    rw [hme] at hn
    cases hn
  refine ⟨fun thread => ?_⟩
  induction thread using h.induction with
  | _ thread ih =>
  refine ⟨thread, fun other hb => ?_⟩
  obtain ⟨n, hn, ho⟩ := Option.bind_eq_some_iff.1 hb
  rw [owner?_start] at ho
  split at ho
  · cases ho
    exact hend
  · exact ih other (Option.bind_eq_some_iff.2 ⟨n, hn, ho⟩)

theorem Acyclic.waitFor (h : table.Acyclic) (hw : table.waitFor me name = .ok table') :
    table'.Acyclic := by
  obtain ⟨rfl, hfree⟩ := waitFor_eq_ok hw
  have hblocks : ∀ {other thread},
      Blocks { table with waiting := (me, name) :: table.waiting.filter (·.1 != me) } other thread →
        if thread = me then table.owner? name = some other else table.Blocks other thread := by
    intro other thread hb
    obtain ⟨n, hn, ho⟩ := Option.bind_eq_some_iff.1 hb
    have hn : ((me, name) :: table.waiting.filter (·.1 != me)).lookup thread = some n := hn
    rw [lookup_waitFor] at hn
    by_cases ht : thread = me
    · rw [if_pos ht] at hn ⊢
      cases hn
      exact ho
    · rw [if_neg ht] at hn ⊢
      exact Option.bind_eq_some_iff.2 ⟨n, hn, ho⟩
  -- what does not lead to the thread has the chains that it had before
  have hfar : ∀ thread, ¬table.Reaches thread me → Acc
      (Blocks { table with waiting := (me, name) :: table.waiting.filter (·.1 != me) }) thread := by
    intro thread
    induction thread using h.induction with
    | _ thread ih =>
    intro hr
    refine ⟨thread, fun other hb => ?_⟩
    have hne : thread ≠ me := by
      rintro rfl
      exact hr .refl
    have hold := hblocks hb
    rw [if_neg hne] at hold
    exact ih other hold fun hother => hr (.head hold hother)
  refine ⟨fun thread => ?_⟩
  induction thread using h.induction with
  | _ thread ih =>
  refine ⟨thread, fun other hb => ?_⟩
  have hold := hblocks hb
  split at hold
  · exact hfar other (hfree other hold)
  · exact ih other hold

/-! ### Requests to wait -/

/-- What comes of a request to wait: it is refused exactly if the chain of the class leads back to
the thread, over however many links; the refusal leaves all as it was, and a granted wait changes
nothing but what the thread waits for. -/
structure AnswersWait (table : InFlight) (me : ThreadId) (name : String) : Prop where
  refused : table.waitFor me name = .error (.circular name) ↔
    ∃ links, table.follow (table.owner? name) links = some me
  unchanged : ∀ (env : Environment) (s : Loader) (slot : SlotId) (callers : List Definition),
    s.inFlight = table → table.waitFor me name = .error (.circular name) →
      Thread.step env s me ⟨.requestWait name slot, callers⟩ =
        some (s, ⟨.answer (.error (.circular name)), callers⟩)
  granted : (¬∃ links, table.follow (table.owner? name) links = some me) →
    ∃ table', table.waitFor me name = .ok table' ∧ table'.owners = table.owners ∧
      ∀ thread, table'.waiting.lookup thread =
        if thread = me then some name else table.waiting.lookup thread

theorem answersWait (table : InFlight) (me : ThreadId) (name : String) :
    table.AnswersWait me name where
  refused := waitFor_eq_error_iff
  unchanged := by
    rintro env s slot callers rfl hrefused
    simp [Thread.step, hrefused]
  granted := by
    intro hfree
    cases hw : table.waitFor me name with
    | error e =>
      exact absurd (waitFor_eq_error_iff.1 (waitFor_eq_error hw ▸ hw)) hfree
    | ok table' =>
      obtain ⟨rfl, -⟩ := waitFor_eq_ok hw
      exact ⟨_, rfl, rfl, lookup_waitFor⟩

/-- A wait is refused exactly if it would close a circle of threads, none of which could go on; and
as long as no thread takes a class while it waits, no operation on the table closes one. -/
theorem waits_close_no_circle (table : InFlight) (me : ThreadId) (name : String) :
    table.AnswersWait me name ∧
      (table.Acyclic ↔ ∀ thread, ¬Relation.TransGen table.Blocks thread thread) ∧
      (table.Acyclic →
        (∀ table', table.waitFor me name = .ok table' → table'.Acyclic) ∧
        (table.waiting.lookup me = none → (table.start me name).Acyclic) ∧
        (table.finish name).Acyclic ∧ (table.stopWaiting me).Acyclic) :=
  ⟨table.answersWait me name, acyclic_iff, fun h =>
    ⟨fun _ => h.waitFor, fun hme => h.start hme name, h.finish name, h.stopWaiting me⟩⟩

/-- Three threads in a row: one waits for a class of the next, that for a class of the last. -/
def inARow : InFlight where
  owners := [("demo/C", 0), ("demo/B", 2), ("demo/A", 1)]
  waiting := [(2, "demo/C"), (1, "demo/B")]

theorem acyclic_inARow : inARow.Acyclic := by
  have howners : Acyclic ⟨inARow.owners, []⟩ :=
    ((acyclic_empty.start rfl "demo/A").start rfl "demo/B").start rfl "demo/C"
  have hfirst : waitFor ⟨inARow.owners, []⟩ 1 "demo/B" =
      .ok ⟨inARow.owners, [(1, "demo/B")]⟩ := by decide
  have hsecond : waitFor ⟨inARow.owners, [(1, "demo/B")]⟩ 2 "demo/C" = .ok inARow := by decide
  exact (howners.waitFor hfirst).waitFor hsecond

/-- The last of three threads in a row is refused the class of the first, from which as many links
lead to it as there are waiting threads, and may wait for a class that nobody loads. -/
theorem inARow_answersWait : inARow.Acyclic ∧
    inARow.follow (inARow.owner? "demo/A") inARow.waiting.length = some 0 ∧
    inARow.waitFor 0 "demo/A" = .error (.circular "demo/A") ∧
    (∃ table', inARow.waitFor 0 "demo/D" = .ok table' ∧ table'.Acyclic) ∧
    (inARow.start 0 "demo/D").Acyclic ∧ (inARow.finish "demo/A").Acyclic ∧
    (inARow.stopWaiting 0).Acyclic := by
  have hchain : inARow.follow (inARow.owner? "demo/A") inARow.waiting.length = some 0 := by decide
  obtain ⟨hfirst, -, hkept⟩ := waits_close_no_circle inARow 0 "demo/A"
  obtain ⟨-, -, hother⟩ := waits_close_no_circle inARow 0 "demo/D"
  obtain ⟨hwait, hstart, -⟩ := hother acyclic_inARow
  obtain ⟨-, -, hfinish, hstop⟩ := hkept acyclic_inARow
  exact ⟨acyclic_inARow, hchain, hfirst.refused.2 ⟨_, hchain⟩, ⟨_, rfl, hwait _ rfl⟩, hstart rfl,
    hfinish, hstop⟩

end InFlight

end ClassLoading
