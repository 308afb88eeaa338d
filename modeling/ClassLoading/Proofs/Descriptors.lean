import ClassLoading.Descriptor
import Mathlib.Data.Set.Function

/-! Reading descriptors against writing them. A class name runs to the first `;`, so a type whose
class names hold none is read back from what it is written as, whatever follows it. Parameters are
read for as long as a type stands at the front, and no type starts with the parenthesis behind them.
So each accepted text is the text of one type, and no accepted text continues another. -/
namespace ClassLoading

/-- What is written as an accepted text is read back from it, and any other text is refused as a
whole. -/
structure ReadsBack {α : Type} (read : String → Except DescriptorError α) (write : α → String)
    (Spellable : α → Prop) : Prop where
  accepts : ∀ text a, read text = .ok a ↔ write a = text ∧ Spellable a
  paired : Set.BijOn write {a | Spellable a} {text | ∃ a, read text = .ok a}
  refuses : ∀ text, read text = .error ⟨text⟩ ↔ ∀ a, Spellable a → write a ≠ text
  names : ∀ text e, read text = .error e → e.text = text
  closed : ∀ a more, Spellable a → more ≠ "" →
    read (write a ++ more) = .error ⟨write a ++ more⟩

/-- Reading that gives back what was written, and names the text when it fails, pairs texts and
values off. -/
theorem ReadsBack.of_accepts {α : Type} {read : String → Except DescriptorError α}
    {write : α → String} {Spellable : α → Prop}
    (haccepts : ∀ text a, read text = .ok a ↔ write a = text ∧ Spellable a)
    (hnames : ∀ text e, read text = .error e → e = ⟨text⟩)
    (hclosed : ∀ a b more, Spellable a → write b = write a ++ more → Spellable b → more = "") :
    ReadsBack read write Spellable := by
  have hrefuses : ∀ text, read text = .error ⟨text⟩ ↔ ∀ a, Spellable a → write a ≠ text := by
    intro text
    constructor
    · intro h a ha hwrite
      rw [(haccepts text a).2 ⟨hwrite, ha⟩] at h
      cases h
    · intro h
      cases hread : read text with
      | ok a =>
        obtain ⟨hwrite, ha⟩ := (haccepts text a).1 hread
        exact absurd hwrite (h a ha)
      | error e => rw [hnames text e hread]
  refine ⟨haccepts, ⟨?_, ?_, ?_⟩, hrefuses, ?_, ?_⟩
  · intro a ha
    exact ⟨a, (haccepts _ a).2 ⟨rfl, ha⟩⟩
  · intro a ha b hb hwrite
    have hreada := (haccepts (write b) a).2 ⟨hwrite, ha⟩
    have hreadb := (haccepts (write b) b).2 ⟨rfl, hb⟩
    rw [hreada] at hreadb
    exact Except.ok.inj hreadb
  · rintro text ⟨a, hread⟩
    obtain ⟨hwrite, ha⟩ := (haccepts text a).1 hread
    exact ⟨a, ha, hwrite⟩
  · intro text e h
    rw [hnames text e h]
  · intro a more ha hmore
    refine (hrefuses _).2 fun b hb hwrite => ?_
    exact hmore (hclosed a b more ha hwrite hb)

/-! ### One type -/

namespace FieldType

variable {t : FieldType} {types : List FieldType} {text rest : List Char} {name : String}

/-- No class name inside the type holds the character that ends one. -/
def Spellable : FieldType → Prop
  | .primitive _ => True
  | .object name => ';' ∉ name.toList
  | .array element => element.Spellable

instance decidableSpellable : (t : FieldType) → Decidable t.Spellable
  | .primitive _ => inferInstanceAs (Decidable True)
  | .object name => inferInstanceAs (Decidable (';' ∉ name.toList))
  | .array element => decidableSpellable element

theorem toList_descriptor (t : FieldType) : t.descriptor.toList = t.chars := by
  rw [descriptor, String.toList_ofList]

theorem read?_cons_letter (p : Primitive) (rest : List Char) :
    read? (p.letter :: rest) = some (.primitive p, rest) := by
  cases p <;> rfl

theorem read?_chars_append (ht : t.Spellable) (rest : List Char) :
    read? (t.chars ++ rest) = some (t, rest) := by
  induction t with
  | primitive p => exact read?_cons_letter p rest
  | object name =>
    have hkept : ∀ c ∈ name.toList, (c != ';') = true := by
      intro c hc
      exact bne_iff_ne.2 fun h => ht (h ▸ hc)
    simp only [chars, List.cons_append, List.append_assoc, read?,
      List.dropWhile_append_of_pos hkept, List.takeWhile_append_of_pos hkept]
    simp
  | array element ih => simp [chars, read?, ih ht]

theorem spellable_of_read? (h : read? text = some (t, rest)) : t.Spellable := by
  fun_induction read? text generalizing t with
  | case1 => cases h
  | case2 text ih =>
    obtain ⟨⟨u, r⟩, hu, he⟩ := Option.map_eq_some_iff.1 h
    cases he
    exact ih (t := u) hu
  | case3 => cases h
  | case4 text c after hd =>
    cases h
    rw [Spellable, String.toList_ofList]
    intro hmem
    exact absurd (List.all_eq_true.1 List.all_takeWhile _ hmem) (by decide)
  | case5 c text =>
    obtain ⟨p, -, he⟩ := Option.map_eq_some_iff.1 h
    cases he
    trivial

theorem read?_eq_some_iff :
    read? text = some (t, rest) ↔ t.Spellable ∧ text = t.chars ++ rest := by
  constructor
  · intro h
    exact ⟨spellable_of_read? h, eq_chars_of_read? h⟩
  · rintro ⟨ht, rfl⟩
    exact read?_chars_append ht rest

/-- No accepted text continues another. -/
theorem eq_nil_of_chars_append {a b : FieldType} {more : List Char} (ha : a.Spellable)
    (hb : b.Spellable) (h : b.chars = a.chars ++ more) : more = [] := by
  have hreada := read?_chars_append ha more
  have hreadb := read?_chars_append hb []
  rw [List.append_nil, h, hreada] at hreadb
  exact (Prod.mk.inj (Option.some.inj hreadb)).2

theorem ofDescriptor_eq_ok_iff : ofDescriptor name = .ok t ↔ t.descriptor = name ∧ t.Spellable := by
  have hread : ofDescriptor name = .ok t ↔ read? name.toList = some (t, []) := by
    unfold ofDescriptor
    split <;> simp_all
  rw [hread, read?_eq_some_iff, List.append_nil, ← toList_descriptor, String.toList_inj, and_comm,
    eq_comm]

theorem toList_of_ofDescriptor (h : ofDescriptor name = .ok t) : name.toList = t.chars := by
  rw [← (ofDescriptor_eq_ok_iff.1 h).1, toList_descriptor]

theorem eq_descriptor_of_ofDescriptor (h : ofDescriptor name = .ok t) : name = t.descriptor :=
  (ofDescriptor_eq_ok_iff.1 h).1.symm

/-! ### As many types as stand at the front -/

theorem readMany_eq_iff : readMany text = (types, rest) ↔
    (∀ t ∈ types, t.Spellable) ∧ text = types.flatMap chars ++ rest ∧ read? rest = none := by
  constructor
  · intro h
    fun_induction readMany text generalizing types with
    | case1 text hread =>
      cases h
      exact ⟨nofun, rfl, hread⟩
    | case2 text t after hread _ more last hmore ih =>
      cases h
      obtain ⟨hmem, hafter, hrest⟩ := ih hmore
      obtain ⟨ht, htext⟩ := read?_eq_some_iff.1 hread
      refine ⟨List.forall_mem_cons.2 ⟨ht, hmem⟩, ?_, hrest⟩
      rw [htext, hafter, List.flatMap_cons, List.append_assoc]
  · rintro ⟨hmem, rfl, hrest⟩
    induction types with
    | nil =>
      rw [List.flatMap_nil, List.nil_append, readMany]
      split <;> simp_all
    | cons t types ih =>
      obtain ⟨ht, htypes⟩ := List.forall_mem_cons.1 hmem
      have hread := read?_chars_append ht (types.flatMap chars ++ rest)
      rw [List.flatMap_cons, List.append_assoc, readMany]
      split
      · simp_all
      · next after h =>
        rw [hread] at h
        cases h
        rw [ih htypes]

end FieldType

/-! ### Methods -/

namespace MethodType

variable {m : MethodType} {result : Option FieldType} {text : List Char} {name : String}

/-- No class name inside a parameter or the result holds the character that ends one. -/
def Spellable (m : MethodType) : Prop :=
  (∀ t ∈ m.parameters, t.Spellable) ∧ ∀ t ∈ m.result, t.Spellable

instance (m : MethodType) : Decidable m.Spellable := inferInstanceAs (Decidable (_ ∧ _))

theorem toList_descriptor (m : MethodType) : m.descriptor.toList = m.chars := by
  rw [descriptor, String.toList_ofList]

theorem readResult?_eq_some_iff :
    readResult? text = some result ↔ (∀ t ∈ result, t.Spellable) ∧ text = resultChars result := by
  cases result with
  | none =>
    unfold readResult? resultChars
    split
    · simp
    · split <;> simp_all
  | some t =>
    have hread : readResult? text = some (some t) ↔ FieldType.read? text = some (t, []) := by
      unfold readResult?
      split
      · simp [FieldType.read?, Primitive.ofLetter?]
      · split <;> simp_all
    simp [hread, FieldType.read?_eq_some_iff, resultChars]

/-- No type starts with the closing parenthesis, so the parameters end there. -/
theorem readMany_parameters {parameters : List FieldType} (h : ∀ t ∈ parameters, t.Spellable)
    (rest : List Char) :
    FieldType.readMany (parameters.flatMap FieldType.chars ++ ')' :: rest)
      = (parameters, ')' :: rest) :=
  FieldType.readMany_eq_iff.2 ⟨h, rfl, rfl⟩

theorem read?_eq_some_iff : read? text = some m ↔ m.Spellable ∧ text = m.chars := by
  obtain ⟨parameters, result⟩ := m
  constructor
  · intro h
    unfold read? at h
    split at h
    · split at h
      · next text parameters' rest hmany =>
        obtain ⟨result', hresult, he⟩ := Option.map_eq_some_iff.1 h
        cases he
        obtain ⟨hmem, htext, -⟩ := FieldType.readMany_eq_iff.1 hmany
        obtain ⟨hspell, hrest⟩ := readResult?_eq_some_iff.1 hresult
        exact ⟨⟨hmem, hspell⟩, by rw [htext, hrest, chars]⟩
      · cases h
    · cases h
  · rintro ⟨⟨hmem, hspell⟩, rfl⟩
    have hresult := readResult?_eq_some_iff.2 ⟨hspell, rfl⟩
    simp [chars, read?, readMany_parameters hmem, hresult]

theorem ofDescriptor_eq_ok_iff : ofDescriptor name = .ok m ↔ m.descriptor = name ∧ m.Spellable := by
  have hread : ofDescriptor name = .ok m ↔ read? name.toList = some m := by
    unfold ofDescriptor
    split <;> simp_all
  rw [hread, read?_eq_some_iff, ← toList_descriptor, String.toList_inj, and_comm, eq_comm]

/-- Nothing can follow a result. -/
theorem eq_nil_of_resultChars_append {a b : Option FieldType} {more : List Char}
    (ha : ∀ t ∈ a, t.Spellable) (hb : ∀ t ∈ b, t.Spellable)
    (h : resultChars b = resultChars a ++ more) : more = [] := by
  have hvoid (rest : List Char) : FieldType.read? ('V' :: rest) = none := rfl
  match a, b with
  | none, none => simpa [resultChars] using h
  | none, some u =>
    have hread := FieldType.read?_chars_append (hb u rfl) []
    simp [resultChars] at h
    simp [h, hvoid] at hread
  | some t, none =>
    have hread := FieldType.read?_chars_append (ha t rfl) more
    simp only [resultChars] at h
    simp [← h, hvoid] at hread
  | some t, some u =>
    simp only [resultChars] at h
    exact FieldType.eq_nil_of_chars_append (ha t rfl) (hb u rfl) h

/-- No accepted text continues another. -/
theorem eq_nil_of_chars_append {a b : MethodType} {more : List Char} (ha : a.Spellable)
    (hb : b.Spellable) (h : b.chars = a.chars ++ more) : more = [] := by
  have htext : b.parameters.flatMap FieldType.chars ++ ')' :: resultChars b.result
      = a.parameters.flatMap FieldType.chars ++ ')' :: (resultChars a.result ++ more) := by
    simpa [chars] using h
  have hreadb := readMany_parameters hb.1 (resultChars b.result)
  rw [htext, readMany_parameters ha.1] at hreadb
  have hrest := (List.cons.inj (Prod.mk.inj hreadb).2).2
  exact eq_nil_of_resultChars_append ha.2 hb.2 hrest.symm

end MethodType

/-! ### Reading and writing -/

/-- Descriptors of fields and of methods are read back from what they are written as, exactly where
no class name holds a `;`, and every other text is refused and named in the error. -/
theorem descriptors_read_back :
    ReadsBack FieldType.ofDescriptor FieldType.descriptor FieldType.Spellable ∧
    ReadsBack MethodType.ofDescriptor MethodType.descriptor MethodType.Spellable := by
  constructor
  · refine .of_accepts (fun _ _ => FieldType.ofDescriptor_eq_ok_iff) ?_ ?_
    · intro text e h
      unfold FieldType.ofDescriptor at h
      split at h <;> cases h
      rfl
    · intro a b more ha h hb
      refine String.toList_eq_nil_iff.1 (FieldType.eq_nil_of_chars_append ha hb ?_)
      simpa [FieldType.toList_descriptor] using congrArg String.toList h
  · refine .of_accepts (fun _ _ => MethodType.ofDescriptor_eq_ok_iff) ?_ ?_
    · intro text e h
      unfold MethodType.ofDescriptor at h
      split at h <;> cases h
      rfl
    · intro a b more ha h hb
      refine String.toList_eq_nil_iff.1 (MethodType.eq_nil_of_chars_append ha hb ?_)
      simpa [MethodType.toList_descriptor] using congrArg String.toList h

/-- A class name may run over parentheses, as long as a `;` ends it. -/
example : MethodType.ofDescriptor "(L)I;[[J)V"
    = .ok ⟨[.object ")I", .array (.array (.primitive .long))], none⟩ := by cbv

example : MethodType.ofDescriptor "(V)V" = .error ⟨"(V)V"⟩ := by cbv

end ClassLoading
