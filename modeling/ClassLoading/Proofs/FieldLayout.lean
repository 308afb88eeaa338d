import ClassLoading.Proofs.Additions
import ClassLoading.Proofs.Loadable
import ClassLoading.Proofs.Machines

/-! The slots of fields. The instance fields of one class stand side by side, from where those of
its super class end to where its own instances end, and its static fields are numbered from zero.
Class by class, in the order in which the table has grown, the instance fields of a whole hierarchy
then fill the slots of an instance without a gap and without an overlap. -/
namespace ClassLoading

/-! ### Fields side by side -/

theorem FieldType.width_pos (t : FieldType) : 0 < t.width := by
  unfold width
  split <;> omega

namespace LoadedField

/-- The first slot behind an instance field. -/
def stop (field : LoadedField) : Nat := field.slot + field.type.width

def Covers (field : LoadedField) (slot : Nat) : Prop := field.slot ≤ slot ∧ slot < field.stop

/-- The fields take the slots from `low` on, in order and side by side, up to `high`. -/
def Tile : Nat → List LoadedField → Nat → Prop
  | low, [], high => low = high
  | low, field :: rest, high => field.slot = low ∧ Tile field.stop rest high

variable {low high : Nat} {fields : List LoadedField}

theorem slot_le_stop (field : LoadedField) : field.slot ≤ field.stop := Nat.le_add_right ..

theorem Tile.le (h : Tile low fields high) : low ≤ high := by
  induction fields generalizing low with
  | nil => exact Nat.le_of_eq h
  | cons field rest ih =>
    obtain ⟨rfl, hrest⟩ := h
    exact Nat.le_trans field.slot_le_stop (ih hrest)

theorem Tile.bounds (h : Tile low fields high) {field : LoadedField} (hf : field ∈ fields) :
    low ≤ field.slot ∧ field.stop ≤ high := by
  induction fields generalizing low with
  | nil => cases hf
  | cons first rest ih =>
    obtain ⟨rfl, hrest⟩ := h
    rcases List.mem_cons.1 hf with rfl | hf
    · exact ⟨Nat.le_refl _, hrest.le⟩
    · obtain ⟨hlow, hhigh⟩ := ih hrest hf
      exact ⟨Nat.le_trans first.slot_le_stop hlow, hhigh⟩

theorem Tile.ordered (h : Tile low fields high) :
    fields.Pairwise fun f g => f.stop ≤ g.slot := by
  induction fields generalizing low with
  | nil => exact .nil
  | cons first rest ih =>
    obtain ⟨rfl, hrest⟩ := h
    exact .cons (fun field hf => (hrest.bounds hf).1) (ih hrest)

theorem Tile.exists_covers_iff (h : Tile low fields high) (slot : Nat) :
    (∃ field ∈ fields, field.Covers slot) ↔ low ≤ slot ∧ slot < high := by
  induction fields generalizing low with
  | nil =>
    cases h
    simp
  | cons first rest ih =>
    obtain ⟨rfl, hrest⟩ := h
    have hle := hrest.le
    have hstop := first.slot_le_stop
    rw [List.exists_mem_cons_iff, ih hrest]
    unfold Covers
    omega

end LoadedField

namespace FieldDeclaration

theorem tile_layout (declarations : List FieldDeclaration) (instanceSlot staticSlot : Nat) :
    LoadedField.Tile instanceSlot
      ((layout instanceSlot staticSlot declarations).filter fun field => !field.isStatic)
      (instanceSlot + instanceWidth declarations) := by
  induction declarations generalizing instanceSlot staticSlot with
  | nil => rfl
  | cons first rest ih =>
    by_cases hs : first.isStatic
    · have hstatic : (first.atSlot staticSlot).isStatic = true := hs
      simp only [layout, instanceWidth, if_pos hs, Nat.zero_add]
      rw [List.filter_cons_of_neg (by simp [hstatic])]
      exact ih instanceSlot (staticSlot + 1)
    · have hstatic : (first.atSlot instanceSlot).isStatic = false := Bool.eq_false_iff.2 hs
      simp only [layout, instanceWidth, if_neg hs]
      rw [List.filter_cons_of_pos (by simp [hstatic]), ← Nat.add_assoc]
      exact ⟨rfl, ih (instanceSlot + first.type.width) staticSlot⟩

/-- The static fields take their slots in turn. -/
theorem filter_isStatic_layout (declarations : List FieldDeclaration)
    (instanceSlot staticSlot : Nat) :
    (layout instanceSlot staticSlot declarations).filter (·.isStatic) =
      ((declarations.filter (·.isStatic)).zipIdx staticSlot).map fun entry =>
        entry.1.atSlot entry.2 := by
  induction declarations generalizing instanceSlot staticSlot with
  | nil => rfl
  | cons first rest ih =>
    by_cases hs : first.isStatic
    · have hstatic : (first.atSlot staticSlot).isStatic = true := hs
      rw [layout, if_pos hs, List.filter_cons_of_pos hstatic, List.filter_cons_of_pos hs, ih,
        List.zipIdx_cons, List.map_cons]
    · have hstatic : ¬(first.atSlot instanceSlot).isStatic = true := hs
      rw [layout, if_neg hs, List.filter_cons_of_neg hstatic, List.filter_cons_of_neg hs, ih]

theorem map_slot_layout (declarations : List FieldDeclaration) (instanceSlot staticSlot : Nat) :
    ((layout instanceSlot staticSlot declarations).filter (·.isStatic)).map (·.slot) =
      List.range' staticSlot (declarations.filter (·.isStatic)).length := by
  rw [filter_isStatic_layout, List.map_map, ← List.zipIdx_map_snd]
  rfl

end FieldDeclaration

/-! ### The slots of a class -/

/-- The fields of a class and of its super classes fill the storage that the class has for them. -/
structure ClassTable.Tiled (classes : ClassTable) (id : ClassId) (c : LoadedClass) : Prop where
  /-- The super class stands before the class, so that no super class is left out. -/
  parent : ∀ parent, c.superClass = some parent → parent < id
  /-- No two fields of an instance share a slot. -/
  disjoint : (classes.instanceFields id).Pairwise fun f g => f.stop ≤ g.slot ∨ g.stop ≤ f.slot
  /-- The slots of these fields are the slots of an instance. -/
  covered : ∀ slot,
    (∃ field ∈ classes.instanceFields id, field.Covers slot) ↔ slot < c.instanceSlots
  /-- The class's own fields come after those of its super class. -/
  above : ∀ field ∈ c.fields, field.isStatic = false →
    classes.inheritedSlots c.superClass ≤ field.slot
  ordered : (c.fields.filter fun field => !field.isStatic).Pairwise fun f g => f.stop ≤ g.slot
  statics : (c.fields.filter (·.isStatic)).map (·.slot) = List.range c.statics.size
  /-- The constants lead only to static slots that there are. -/
  links : ∀ constant ∈ c.constants, ∀ slot,
    constant.staticSlot? = some slot → slot < c.statics.size

namespace LoadedClass

variable {classes : ClassTable} {c d : LoadedClass}

theorem LaidOut.tile (h : c.LaidOut classes) :
    LoadedField.Tile (classes.inheritedSlots c.superClass)
      (c.fields.filter fun field => !field.isStatic) c.instanceSlots := by
  obtain ⟨declarations, hfields, hslots, -⟩ := h
  rw [hfields, hslots]
  exact FieldDeclaration.tile_layout ..

theorem LaidOut.statics (h : c.LaidOut classes) :
    (c.fields.filter (·.isStatic)).map (·.slot) = List.range c.statics.size := by
  obtain ⟨declarations, hfields, -, hsize⟩ := h
  rw [hfields, hsize, FieldDeclaration.map_slot_layout, List.range_eq_range']

theorem LaidOut.of_fixed (h : c.LaidOut classes) (hfixed : d.fixed = c.fixed) :
    d.LaidOut classes := by
  obtain ⟨declarations, hfields, hslots, hsize⟩ := h
  have hsuper : d.superClass = c.superClass := congrArg (·.superClass) hfixed
  refine ⟨declarations, ?_, ?_, ?_⟩
  · rw [hsuper, ← hfields]
    exact congrArg (·.fields) hfixed
  · rw [hsuper, ← hslots]
    exact congrArg (·.instanceSlots) hfixed
  · rw [← hsize]
    exact statics_size_eq_of_fixed hfixed

theorem LinksOwn.of_fixed (h : c.LinksOwn) (hfixed : d.fixed = c.fixed) : d.LinksOwn := by
  intro constant hconstant slot hslot
  have hfields : d.fields = c.fields := congrArg (·.fields) hfixed
  have hmem : constant.unlinked ∈ c.constants.map (·.unlinked) := by
    have : c.constants.map (·.unlinked) = d.constants.map (·.unlinked) :=
      congrArg (·.constants) hfixed.symm
    rw [this]
    exact Array.mem_map_of_mem hconstant
  obtain ⟨other, hother, heq⟩ := Array.mem_map.1 hmem
  rw [hfields]
  refine h other hother slot ?_
  rw [← hslot, ← LoadedConstant.staticSlot?_unlinked, heq, LoadedConstant.staticSlot?_unlinked]

/-- A static field of a class that is laid out has its value among the class's static values. -/
theorem LaidOut.slot_lt (h : c.LaidOut classes) {field : LoadedField} (hf : field ∈ c.fields)
    (hs : field.isStatic) : field.slot < c.statics.size := by
  have hmem : field.slot ∈ (c.fields.filter (·.isStatic)).map (·.slot) :=
    List.mem_map_of_mem (List.mem_filter.2 ⟨hf, hs⟩)
  rw [h.statics] at hmem
  exact List.mem_range.1 hmem

end LoadedClass

namespace ClassTable

variable {classes : ClassTable} {id parent : ClassId} {c d : LoadedClass}

theorem Tiled.of_own (hl : c.LaidOut classes) (hlinks : c.LinksOwn)
    (before : ∀ parent, c.superClass = some parent → parent < id)
    (disjoint : (classes.instanceFields id).Pairwise fun f g => f.stop ≤ g.slot ∨ g.stop ≤ f.slot)
    (covered : ∀ slot,
      (∃ field ∈ classes.instanceFields id, field.Covers slot) ↔ slot < c.instanceSlots) :
    classes.Tiled id c where
  parent := before
  disjoint := disjoint
  covered := covered
  above field hf hs := (hl.tile.bounds (List.mem_filter.2 ⟨hf, by simp [hs]⟩)).1
  ordered := hl.tile.ordered
  statics := hl.statics
  links constant hconstant slot hslot := by
    obtain ⟨field, hf, hs, rfl⟩ := hlinks constant hconstant slot hslot
    exact hl.slot_lt hf hs

theorem tiled_of_root (hc : classes[id]? = some c) (hs : c.superClass = none)
    (hl : c.LaidOut classes) (hlinks : c.LinksOwn) : classes.Tiled id c := by
  have hfields := instanceFields_of_root hc hs
  have htile := hl.tile
  rw [hs] at htile
  refine .of_own hl hlinks (by simp [hs]) ?_ fun slot => ?_
  · rw [hfields]
    exact htile.ordered.imp fun h => .inl h
  · rw [hfields, htile.exists_covers_iff]
    simp [inheritedSlots]

theorem tiled_of_parent (hc : classes[id]? = some c) (hs : c.superClass = some parent)
    (hlt : parent < id) (hl : c.LaidOut classes) (hlinks : c.LinksOwn)
    (hd : classes[parent]? = some d) (hparent : classes.Tiled parent d) : classes.Tiled id c := by
  have hfields := instanceFields_of_parent hc hs hlt
  have htile := hl.tile
  have hslots : classes.inheritedSlots c.superClass = d.instanceSlots := by
    simp [inheritedSlots, hs, hd]
  rw [hslots] at htile
  refine .of_own hl hlinks (by simp [hs, hlt]) ?_ fun slot => ?_
  · rw [hfields, List.pairwise_append]
    refine ⟨htile.ordered.imp fun h => .inl h, hparent.disjoint, fun f hf g hg => .inr ?_⟩
    -- the last slot of an inherited field is one of the super class's slots
    have hw := g.type.width_pos
    have hcovers : g.Covers (g.slot + g.type.width - 1) := by
      unfold LoadedField.Covers LoadedField.stop
      omega
    have hbelow := (hparent.covered _).1 ⟨g, hg, hcovers⟩
    have habove := (htile.bounds hf).1
    unfold LoadedField.stop
    omega
  · have hle := htile.le
    have hown := htile.exists_covers_iff slot
    have hinherited := hparent.covered slot
    simp only [hfields, List.mem_append, or_and_right, exists_or]
    rw [hown, hinherited]
    omega

end ClassTable

/-! ### Loaded classes -/

namespace Loader

variable {config : LoaderConfig} {search : ClassSearch} {s : Loader}

theorem inheritedSlots_of_extends {past : ClassTable} (hext : s.classes.Extends past)
    {superClass : Option ClassId} (hlt : ∀ i, superClass = some i → i < past.size) :
    s.classes.inheritedSlots superClass = past.inheritedSlots superClass := by
  cases superClass with
  | none => rfl
  | some parent =>
    simp only [ClassTable.inheritedSlots, Option.bind_some]
    rw [hext.map_eq (hlt parent rfl) (·.instanceSlots) fun _ => rfl]

/-- What a loaded class was built from stands before it, and so does all that it was built with. -/
theorem Sound.exists_built (hs : s.Sound config search) {name : String} {id : ClassId}
    (h : s.findLoaded? name = some id) :
    ∃ (past : ClassTable) (built c : LoadedClass), past.size = id ∧ s.classes.Extends past ∧
      s.classes[id]? = some c ∧ c.fixed = built.fixed ∧ built.LaidOut past ∧ built.LinksOwn ∧
      ∀ i ∈ built.references, i < id ∧ ∃ other, s.findLoaded? other = some i := by
  obtain ⟨past, plan, ids, built, rfl, hext, hplan, hdeps, hbuild⟩ := hs.made name id h
  obtain ⟨c, hc, hfixed⟩ := hext past.size built (by simp)
  refine ⟨past, built, c, rfl, (ClassTable.Extends.push past built).trans hext, hc, hfixed,
    Blueprint.laidOut_build hbuild, Blueprint.linksOwn_build hbuild, fun i hi => ?_⟩
  have hmem := (Blueprint.references_build hbuild).2 i hi
  obtain ⟨other, -, hother, hlt⟩ := exists_of_mem_forall₂ hdeps hmem
  exact ⟨hlt, other, hother⟩

theorem Sound.tiled (hs : s.Sound config search) {name : String} {id : ClassId}
    (h : s.findLoaded? name = some id) : ∃ c, s.classes[id]? = some c ∧ s.classes.Tiled id c := by
  -- along the order of definition: a super class stands before its sub classes
  induction id using Nat.strongRecOn generalizing name with
  | ind id ih =>
    obtain ⟨past, built, c, hsize, hext, hc, hfixed, hlaid, hlinks, hrefs⟩ := hs.exists_built h
    have hsuper : c.superClass = built.superClass := congrArg (·.superClass) hfixed
    have hlinks := hlinks.of_fixed hfixed
    refine ⟨c, hc, ?_⟩
    cases hparent : c.superClass with
    | none =>
      have hlaid : c.LaidOut s.classes := by
        have := hlaid.of_fixed hfixed
        unfold LoadedClass.LaidOut at this ⊢
        rwa [hparent] at this ⊢
      exact ClassTable.tiled_of_root hc hparent hlaid hlinks
    | some parent =>
      obtain ⟨hlt, other, hother⟩ := hrefs parent (by
        simp [LoadedClass.references, ← hsuper, hparent])
      obtain ⟨d, hd, htiled⟩ := ih parent hlt hother
      have hslots : s.classes.inheritedSlots (some parent) = past.inheritedSlots (some parent) := by
        refine inheritedSlots_of_extends hext ?_
        rintro _ ⟨⟩
        exact hsize ▸ hlt
      have hlaid : c.LaidOut s.classes := by
        have := hlaid.of_fixed hfixed
        unfold LoadedClass.LaidOut at this ⊢
        rw [hparent] at this ⊢
        rwa [hslots]
      exact ClassTable.tiled_of_parent hc hparent hlt hlaid hlinks hd htiled

/-- The class of a file has the fields that the file declares, behind those of its super class. -/
theorem Sound.exists_layout (hs : s.Sound config search) {name : String} {id : ClassId}
    (h : s.findLoaded? name = some id) {file : ClassFile} {superName : Option String}
    {interfaceNames : List String} {declarations : List FieldDeclaration}
    (hplan : Blueprint.ofName search name = .ok (.ordinary file superName interfaceNames))
    (hdecode : file.fields.mapM (file.pool.decodeField name) = .ok declarations) :
    ∃ c, s.classes[id]? = some c ∧
      Option.Rel (fun parent i => s.findLoaded? parent = some i) superName c.superClass ∧
      c.fields = FieldDeclaration.layout (s.classes.inheritedSlots c.superClass) 0 declarations ∧
      c.instanceSlots =
        s.classes.inheritedSlots c.superClass + FieldDeclaration.instanceWidth declarations := by
  obtain ⟨past, superClass, interfaces, built, c, hc, hfixed, hsuper, hext, hlt, hbuilt⟩ :=
    hs.exists_buildOrdinary h hplan
  obtain ⟨declarations', methods, hdecode', -, houtline⟩ := Blueprint.outline_buildOrdinary hbuilt
  rw [hdecode] at hdecode'
  cases hdecode'
  have hkept : c.outline = built.outline := congrArg (fun c => { c with constants := #[] }) hfixed
  rw [houtline] at hkept
  have hcSuper : c.superClass = superClass := congrArg (·.superClass) hkept
  refine ⟨c, hc, ?_⟩
  rw [hcSuper, inheritedSlots_of_extends hext hlt]
  exact ⟨hsuper, congrArg (·.fields) hkept, congrArg (·.instanceSlots) hkept⟩

end Loader

namespace Machine.Reachable

/-- In every state of a loader that threads and requests can bring about, every loaded class has its
fields laid out without gap and overlap: those of its instances over its whole hierarchy, and its
static ones by themselves. -/
theorem fields_tile_storage {config : LoaderConfig} {search : ClassSearch} {m : Machine}
    (hm : m.Reachable config search) {name : String} {id : ClassId}
    (h : m.loader.findLoaded? name = some id) :
    ∃ c, m.loader.classes[id]? = some c ∧ m.loader.classes.Tiled id c :=
  hm.sound.loader.tiled h

/-- A class with a wide field, a static field and another field, on top of a class without any: the
wide field takes the first two slots of an instance and the other one the third, and the static
field has the only static slot. -/
theorem classClass_tiles_storage : ∃ (m : Machine) (id : ClassId) (c : LoadedClass),
    m.Reachable .standard SmallPath.search ∧ m.loader.findLoaded? classClassName = some id ∧
      m.loader.classes[id]? = some c ∧ m.loader.classes.Tiled id c ∧
      c.fields = [⟨0, "hash", .primitive .long, 0, none⟩, ⟨8, "count", .primitive .int, 0, none⟩,
        ⟨0, "depth", .primitive .int, 2, none⟩] ∧
      c.instanceSlots = 3 ∧ c.statics.size = 1 := by
  obtain ⟨s, hs⟩ := (Loader.bootstrap_isOk_iff ⟨.standard, SmallPath.search, .skip⟩).2
    SmallPath.loadable_class
  have hm : Reachable .standard SmallPath.search ⟨s, #[]⟩ := .ready .skip hs
  obtain ⟨id, hid⟩ := Loader.findLoaded?_bootstrap hs
  obtain ⟨c, hc, htiled⟩ := fields_tile_storage hm hid
  have hsound : s.Sound .standard SmallPath.search := hm.sound.loader
  obtain ⟨c', hc', hsuper, hfields, hslots⟩ :=
    hsound.exists_layout hid SmallPath.ofName_class SmallPath.decode_class
  cases hc.symm.trans hc'
  have hinherited : s.classes.inheritedSlots c.superClass = 0 := by
    cases hparent : c.superClass with
    | none => rfl
    | some parent =>
      rw [hparent] at hsuper
      cases hsuper with
      | some hobject =>
      obtain ⟨d, hd, htop, -, hnone⟩ :=
        hsound.exists_layout hobject SmallPath.ofName_object rfl
      cases hgrand : d.superClass with
      | some _ =>
        rw [hgrand] at htop
        cases htop
      | none =>
        rw [hgrand] at hnone
        simp only [ClassTable.inheritedSlots, Option.bind_some]
        rw [hd]
        exact hnone
  rw [hinherited] at hfields hslots
  have hstatics := htiled.statics
  rw [hfields] at hstatics
  have hsize := congrArg List.length hstatics
  rw [List.length_range] at hsize
  exact ⟨⟨s, #[]⟩, id, c, hm, hid, hc, htiled, hfields, hslots, hsize.symm⟩

end Machine.Reachable

end ClassLoading
