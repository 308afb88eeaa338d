import ClassLoading.Failure
import ClassLoading.Proofs.Reading

/-! The references among constants. In a closed pool every index that a constant holds leads to a
constant of the kind that its place calls for; the check of a pool's references accepts exactly the
closed pools, and in these every name and every pair of a name and a type can be read. -/
namespace ClassLoading

/-- The indices that a constant holds, each with the kind of constant it must lead to; where no
kind is given, every usable constant will do. -/
def Constant.references : Constant → List (UInt16 × Option ConstantKind)
  | .classRef name | .moduleRef name | .packageRef name => [(name, some .utf8)]
  | .string text => [(text, some .utf8)]
  | .methodType descriptor => [(descriptor, some .utf8)]
  | .fieldRef owner member | .methodRef owner member | .interfaceMethodRef owner member =>
    [(owner, some .classRef), (member, some .nameAndType)]
  | .nameAndType name descriptor => [(name, some .utf8), (descriptor, some .utf8)]
  | .dynamic _ member | .invokeDynamic _ member => [(member, some .nameAndType)]
  | .methodHandle _ reference => [(reference, none)]
  | .utf8 _ | .integer _ | .float _ | .long _ | .double _ | .unusable => []

namespace ConstantPool

/-- The index leads to a usable constant, of the given kind if one is given. -/
def Leads (pool : ConstantPool) (index : UInt16) (kind : Option ConstantKind) : Prop :=
  ∃ k, 0 < index.toNat ∧ pool.slots[index.toNat - 1]? = some k ∧ k ≠ .unusable ∧
    ∀ required, kind = some required → k.kind = required

/-- Every index that a constant of the pool holds leads where it must. -/
def Closed (pool : ConstantPool) : Prop :=
  ∀ k ∈ pool.slots, ∀ r ∈ k.references, pool.Leads r.1 r.2

variable {pool : ConstantPool} {index : UInt16}

theorem get_eq_ok_iff {k : Constant} :
    pool.get index = .ok k ↔
      0 < index.toNat ∧ pool.slots[index.toNat - 1]? = some k ∧ k ≠ .unusable := by
  rw [get]
  by_cases h0 : index = 0
  · simp [h0]
  · have hpos : 0 < index.toNat := by
      rcases Nat.eq_zero_or_pos index.toNat with h | h
      · exact absurd (UInt16.toNat_inj.1 h) h0
      · exact h
    rw [if_neg h0]
    split
    · next hs => simp [hs]
    · next hs =>
      simp only [hs, reduceCtorEq, Option.some.injEq, false_iff]
      rintro ⟨-, rfl, hu⟩
      exact hu rfl
    · next k' hu hs =>
      simp only [hs, Except.ok.injEq, Option.some.injEq]
      exact ⟨fun h => ⟨hpos, h, h ▸ hu⟩, fun h => h.2.1⟩

theorem leads_none_iff : pool.Leads index none ↔ ∃ k, pool.get index = .ok k := by
  simp [Leads, get_eq_ok_iff]

theorem leads_some_iff {kind : ConstantKind} :
    pool.Leads index (some kind) ↔ ∃ k, pool.get index = .ok k ∧ k.kind = kind := by
  simp [Leads, get_eq_ok_iff, and_assoc]

theorem leads_utf8_iff : pool.Leads index (some .utf8) ↔ ∃ text, pool.utf8 index = .ok text := by
  rw [leads_some_iff]
  constructor
  · rintro ⟨k, hk, hkind⟩
    cases k <;> cases hkind
    next text => exact ⟨text, by rw [utf8, hk]; rfl⟩
  · rintro ⟨text, h⟩
    obtain ⟨k, hk, h⟩ := bind_eq_ok_iff.1 h
    refine ⟨k, hk, ?_⟩
    cases k <;> first | rfl | cases h

theorem leads_of_className {name : String} (h : pool.className index = .ok name) :
    pool.Leads index (some .classRef) := by
  obtain ⟨k, hk, h⟩ := bind_eq_ok_iff.1 h
  refine leads_some_iff.2 ⟨k, hk, ?_⟩
  cases k <;> first | rfl | cases h

theorem leads_of_nameAndType {texts : String × String} (h : pool.nameAndType index = .ok texts) :
    pool.Leads index (some .nameAndType) := by
  obtain ⟨k, hk, h⟩ := bind_eq_ok_iff.1 h
  refine leads_some_iff.2 ⟨k, hk, ?_⟩
  cases k <;> first | rfl | cases h

theorem nameAndType_eq_ok_iff {name descriptor : UInt16} {texts : String × String}
    (hk : pool.get index = .ok (.nameAndType name descriptor)) :
    pool.nameAndType index = .ok texts ↔
      pool.utf8 name = .ok texts.1 ∧ pool.utf8 descriptor = .ok texts.2 := by
  rw [nameAndType, hk]
  show pool.utf8 name >>= (fun a => pool.utf8 descriptor >>= fun b => pure (a, b)) = .ok texts ↔ _
  simp only [bind_eq_ok_iff]
  constructor
  · rintro ⟨t₁, h₁, t₂, h₂, h⟩
    cases h
    exact ⟨h₁, h₂⟩
  · rintro ⟨h₁, h₂⟩
    exact ⟨_, h₁, _, h₂, rfl⟩

/-- In a closed pool the name of a class constant can be had. -/
theorem Closed.className_of_leads (hc : pool.Closed) (h : pool.Leads index (some .classRef)) :
    ∃ name, pool.className index = .ok name := by
  obtain ⟨k, hk, hkind⟩ := leads_some_iff.1 h
  have hm := List.mem_of_getElem? (get_eq_ok_iff.1 hk).2.1
  cases k <;> cases hkind
  next name =>
  obtain ⟨text, ht⟩ := leads_utf8_iff.1 (hc _ hm (name, some .utf8) (by simp [Constant.references]))
  exact ⟨text, by rw [className, hk]; exact ht⟩

theorem Closed.nameAndType_of_leads (hc : pool.Closed)
    (h : pool.Leads index (some .nameAndType)) : ∃ texts, pool.nameAndType index = .ok texts := by
  obtain ⟨k, hk, hkind⟩ := leads_some_iff.1 h
  have hm := List.mem_of_getElem? (get_eq_ok_iff.1 hk).2.1
  cases k <;> cases hkind
  next name descriptor =>
  obtain ⟨t₁, h₁⟩ := leads_utf8_iff.1 (hc _ hm (name, some .utf8) (by simp [Constant.references]))
  obtain ⟨t₂, h₂⟩ :=
    leads_utf8_iff.1 (hc _ hm (descriptor, some .utf8) (by simp [Constant.references]))
  exact ⟨(t₁, t₂), (nameAndType_eq_ok_iff hk).2 ⟨h₁, h₂⟩⟩

/-! ### The check of the references -/

theorem leads_of_checkConstant {k : Constant} (hk : pool.get index = .ok k)
    (h : pool.checkConstant index k = .ok ()) : ∀ r ∈ k.references, pool.Leads r.1 r.2 := by
  cases k with
  | utf8 _ | integer _ | float _ | long _ | double _ | unusable => simp [Constant.references]
  | classRef _ | string _ | methodType _ | moduleRef _ | packageRef _ =>
    simpa [Constant.references] using leads_utf8_iff.2 (discard_eq_ok_iff.1 h)
  | fieldRef owner member | methodRef owner member | interfaceMethodRef owner member =>
    obtain ⟨_, ho, hm⟩ := bind_eq_ok_iff.1 h
    obtain ⟨name, ho⟩ := discard_eq_ok_iff.1 ho
    obtain ⟨texts, hm⟩ := discard_eq_ok_iff.1 hm
    simpa [Constant.references] using ⟨leads_of_className ho, leads_of_nameAndType hm⟩
  | dynamic _ member | invokeDynamic _ member =>
    obtain ⟨texts, hm⟩ := discard_eq_ok_iff.1 h
    simpa [Constant.references] using leads_of_nameAndType hm
  | methodHandle _ reference =>
    simpa [Constant.references] using leads_none_iff.2 (discard_eq_ok_iff.1 h)
  | nameAndType name descriptor =>
    obtain ⟨texts, ht⟩ := discard_eq_ok_iff.1 h
    obtain ⟨h₁, h₂⟩ := (nameAndType_eq_ok_iff hk).1 ht
    simpa [Constant.references] using ⟨leads_utf8_iff.2 ⟨_, h₁⟩, leads_utf8_iff.2 ⟨_, h₂⟩⟩

theorem Closed.checkConstant (hc : pool.Closed) {k : Constant} (hk : pool.get index = .ok k) :
    pool.checkConstant index k = .ok () := by
  have href := hc k (List.mem_of_getElem? (get_eq_ok_iff.1 hk).2.1)
  cases k with
  | utf8 _ | integer _ | float _ | long _ | double _ | unusable => rfl
  | classRef _ | string _ | methodType _ | moduleRef _ | packageRef _ =>
    simp only [Constant.references, List.mem_singleton, forall_eq] at href
    exact discard_eq_ok_iff.2 (leads_utf8_iff.1 href)
  | fieldRef owner member | methodRef owner member | interfaceMethodRef owner member =>
    simp only [Constant.references, List.mem_cons, List.not_mem_nil, or_false, forall_eq_or_imp,
      forall_eq] at href
    exact bind_eq_ok_iff.2 ⟨(), discard_eq_ok_iff.2 (hc.className_of_leads href.1),
      discard_eq_ok_iff.2 (hc.nameAndType_of_leads href.2)⟩
  | dynamic _ member | invokeDynamic _ member =>
    simp only [Constant.references, List.mem_singleton, forall_eq] at href
    exact discard_eq_ok_iff.2 (hc.nameAndType_of_leads href)
  | methodHandle _ reference =>
    simp only [Constant.references, List.mem_singleton, forall_eq] at href
    exact discard_eq_ok_iff.2 (leads_none_iff.1 href)
  | nameAndType name descriptor =>
    exact discard_eq_ok_iff.2 (hc.nameAndType_of_leads (leads_some_iff.2 ⟨_, hk, rfl⟩))

/-- The usable constants are those that an index leads to. -/
theorem mem_usable_iff (h : pool.slots.length < 2 ^ 16) {k : Constant} :
    (index, k) ∈ pool.usable ↔ pool.get index = .ok k := by
  rw [get_eq_ok_iff]
  simp only [usable, List.mem_map, List.mem_filter, Prod.exists, Prod.mk.injEq,
    List.mem_zipIdx_iff_getElem?, bne_iff_ne, ne_eq]
  constructor
  · rintro ⟨k', i, ⟨hi, hu⟩, rfl, rfl⟩
    have hlt : i < pool.slots.length := (List.getElem?_eq_some_iff.1 hi).1
    have hn : (i + 1).toUInt16.toNat = i + 1 := toNat_toUInt16 (by omega)
    rw [hn]
    exact ⟨Nat.succ_pos i, hi, hu⟩
  · rintro ⟨hpos, hi, hu⟩
    refine ⟨k, index.toNat - 1, ⟨hi, hu⟩, ?_, rfl⟩
    rw [Nat.sub_add_cancel hpos]
    simp

theorem checkReferences_eq_ok_iff (h : pool.slots.length < 2 ^ 16) :
    pool.checkReferences = .ok () ↔ pool.Closed := by
  rw [checkReferences, forM_eq_ok_iff]
  constructor
  · intro hall k hk r hr
    have hu : k ≠ .unusable := by
      rintro rfl
      simp [Constant.references] at hr
    obtain ⟨i, hi⟩ := List.mem_iff_getElem?.1 hk
    have hlt : i < pool.slots.length := (List.getElem?_eq_some_iff.1 hi).1
    have hn : (i + 1).toUInt16.toNat = i + 1 := toNat_toUInt16 (by omega)
    have hget : pool.get (i + 1).toUInt16 = .ok k := by
      rw [get_eq_ok_iff, hn]
      exact ⟨Nat.succ_pos i, hi, hu⟩
    exact leads_of_checkConstant hget (hall _ ((mem_usable_iff h).2 hget)) r hr
  · intro hc entry hm
    exact hc.checkConstant ((mem_usable_iff h).1 hm)

end ConstantPool

end ClassLoading
