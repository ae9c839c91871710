import Traceability.Disk
import Traceability.Proofs.OrderedMap
import Traceability.Proofs.Path

/-!
# Sound disks

On a sound disk every name has one entry, and what leads to an entry is a directory. Making
directories, writing a file where no directory is, and deleting a file keep a disk sound and leave all
other entries alone. A path without names of two points leads to the entry of its names.
-/
namespace Traceability

/-- Whether a text may be the name of an entry. -/
def Path.FileName (n : Text) : Prop := ProperName n ∧ n ≠ ['.', '.']

instance (n : Text) : Decidable (Path.FileName n) := inferInstanceAs (Decidable (_ ∧ _))

/-- Whether a path starts at a root and only goes down from it. -/
def Path.Direct (p : Path) : Prop := p.isAbsolute = true ∧ ∀ n ∈ p.parts, n ≠ ['.', '.']

instance (p : Path) : Decidable p.Direct := inferInstanceAs (Decidable (_ ∧ _))

namespace Disk

/-- Whether the names of a disk are a tree of directories with files at its ends. -/
structure Sound (d : Disk) : Prop where
  distinct : d.entries.keys.Nodup
  named : ∀ names ∈ d.entries.keys, ∀ n ∈ names, Path.FileName n
  tree : ∀ names more, more ≠ [] → names ++ more ∈ d.entries.keys →
    d.entries.get? names = some .directory
  current : ∀ n ∈ d.current, Path.FileName n

/-- Whether a directory can be made. -/
def Makeable (d : Disk) (names : List Text) : Prop :=
  (∀ n ∈ names, Path.FileName n) ∧
    ∀ a ∈ above names ++ [names], ∀ e ∈ d.entries.get? a, e = .directory

/-- Whether a file can be written. -/
def Writable (d : Disk) (names : List Text) : Prop :=
  (∀ n ∈ names, Path.FileName n) ∧ names ≠ [] ∧ d.entries.get? names ≠ some .directory ∧
    ∀ a ∈ above names, ∀ e ∈ d.entries.get? a, e = .directory

instance (d : Disk) (names : List Text) : Decidable (d.Makeable names) :=
  inferInstanceAs (Decidable (_ ∧ _))

instance (d : Disk) (names : List Text) : Decidable (d.Writable names) :=
  inferInstanceAs (Decidable (_ ∧ _))

theorem mem_above {names a : List Text} :
    a ∈ above names ↔ ∃ more, more ≠ [] ∧ names = a ++ more := by
  simp only [above, List.mem_map, List.mem_range]
  constructor
  · intro found
    obtain ⟨k, short, rfl⟩ := found
    refine ⟨names.drop k, ?_, (List.take_append_drop k names).symm⟩
    rw [ne_eq, List.drop_eq_nil_iff]
    omega
  · intro found
    obtain ⟨more, filled, rfl⟩ := found
    have longer : 0 < more.length := List.length_pos_of_ne_nil filled
    exact ⟨a.length, by rw [List.length_append]; omega, List.take_left⟩

instance (d : Disk) : Decidable d.Sound :=
  decidable_of_iff (d.entries.keys.Nodup ∧
      (∀ names ∈ d.entries.keys, ∀ n ∈ names, Path.FileName n) ∧
      (∀ names ∈ d.entries.keys, ∀ a ∈ above names, d.entries.get? a = some .directory) ∧
      ∀ n ∈ d.current, Path.FileName n) <| by
    constructor
    · intro found
      obtain ⟨distinct, named, tree, current⟩ := found
      refine ⟨distinct, named, fun names more filled member => ?_, current⟩
      exact tree _ member names (mem_above.mpr ⟨more, filled, rfl⟩)
    · intro sound
      refine ⟨sound.distinct, sound.named, fun names member a above => ?_, sound.current⟩
      obtain ⟨more, filled, rfl⟩ := mem_above.mp above
      exact sound.tree a more filled member

/-! ## Making directories -/

theorem get?_makeAll (made : List (List Text)) (entries : OrderedMap (List Text) DiskEntry)
    (q : List Text) :
    (made.foldl (fun entries n => if entries.hasKey n then entries else entries.insert n .directory)
      entries).get? q =
      if q ∈ made then some ((entries.get? q).getD .directory) else entries.get? q := by
  induction made generalizing entries with
  | nil => simp
  | cons n rest ih =>
    have first : (if entries.hasKey n then entries else entries.insert n .directory).get? q =
        if q = n then some ((entries.get? q).getD .directory) else entries.get? q := by
      by_cases here : q = n
      · subst here
        unfold OrderedMap.hasKey
        cases found : entries.get? q with
        | none => simp [OrderedMap.get?_insert]
        | some e => simp [found]
      · rw [if_neg here]
        split
        · rfl
        · rw [OrderedMap.get?_insert, if_neg here]
    rw [List.foldl_cons, ih, first]
    by_cases here : q = n
    · simp [here]
    · simp [here]

theorem nodup_keys_makeAll (made : List (List Text)) {entries : OrderedMap (List Text) DiskEntry}
    (distinct : entries.keys.Nodup) :
    (made.foldl (fun entries n => if entries.hasKey n then entries else entries.insert n .directory)
      entries).keys.Nodup := by
  induction made generalizing entries with
  | nil => exact distinct
  | cons n rest ih =>
    rw [List.foldl_cons]
    apply ih
    split
    · exact distinct
    · exact OrderedMap.nodup_keys_insert distinct n .directory

/-- A directory that is made, and those on the way to it, are there; all else is as it was. -/
theorem get?_makeDirectory {d : Disk} {names : List Text} (makeable : d.Makeable names)
    (q : List Text) :
    (d.makeDirectory names).entries.get? q =
      if q ∈ above names ++ [names] then some .directory else d.entries.get? q := by
  refine (get?_makeAll (above names ++ [names]) d.entries q).trans ?_
  split
  · next member =>
    cases found : d.entries.get? q with
    | none => rfl
    | some e => rw [makeable.2 q member e found, Option.getD_some]
  · rfl

theorem mem_above_of_append {names a more : List Text} (filled : more ≠ [])
    (member : a ++ more ∈ above names ++ [names]) : a ∈ above names := by
  rw [mem_above]
  rcases List.mem_append.mp member with inside | same
  · obtain ⟨rest, _, split⟩ := mem_above.mp inside
    exact ⟨more ++ rest, by simp [filled], by rw [split, List.append_assoc]⟩
  · exact ⟨more, filled, (List.mem_singleton.mp same).symm⟩

theorem Sound.makeDirectory {d : Disk} (sound : d.Sound) {names : List Text}
    (makeable : d.Makeable names) : (d.makeDirectory names).Sound := by
  have known : ∀ q ∈ (d.makeDirectory names).entries.keys,
      q ∈ above names ++ [names] ∨ q ∈ d.entries.keys := by
    intro q member
    by_cases made : q ∈ above names ++ [names]
    · exact Or.inl made
    · rw [OrderedMap.mem_keys_iff, get?_makeDirectory makeable, if_neg made] at member
      exact Or.inr (OrderedMap.mem_keys_iff.mpr member)
  refine ⟨nodup_keys_makeAll _ sound.distinct, ?_, ?_, sound.current⟩
  · intro q member n inside
    rcases known q member with made | old
    · rcases List.mem_append.mp made with above | same
      · obtain ⟨more, _, split⟩ := mem_above.mp above
        exact makeable.1 n (by rw [split]; exact List.mem_append_left _ inside)
      · rw [List.mem_singleton.mp same] at inside
        exact makeable.1 n inside
    · exact sound.named q old n inside
  · intro a more filled member
    rw [get?_makeDirectory makeable]
    split
    · rfl
    · next apart =>
      rcases known _ member with made | old
      · exact absurd (List.mem_append_left _ (mem_above_of_append filled made)) apart
      · exact sound.tree a more filled old

/-! ## Writing a file -/

theorem above_dropLast {names : List Text} (filled : names ≠ []) :
    above names.dropLast ++ [names.dropLast] = above names := by
  obtain ⟨before, last, rfl⟩ : ∃ before last, names = before ++ [last] :=
    ⟨_, _, (List.dropLast_append_getLast filled).symm⟩
  rw [List.dropLast_concat, above, above, List.length_append, List.length_singleton,
    List.range_succ, List.map_append]
  congr 1
  · apply List.map_congr_left
    intro k member
    have short : k ≤ before.length := Nat.le_of_lt (List.mem_range.mp member)
    rw [List.take_append_of_le_length short]
  · simp

theorem not_mem_above (names : List Text) : names ∉ above names := by
  intro member
  obtain ⟨more, filled, split⟩ := mem_above.mp member
  exact filled (List.append_right_eq_self.mp split.symm)

theorem Writable.makeable {d : Disk} {names : List Text} (writable : d.Writable names) :
    d.Makeable names.dropLast := by
  obtain ⟨named, filled, _, free⟩ := writable
  rw [Makeable, above_dropLast filled]
  exact ⟨fun n member => named n (List.dropLast_subset names member), free⟩

/-- A file that is written is there, and what is on the way to it is a directory; all else is as it
was. -/
theorem get?_write {d : Disk} {names : List Text} (writable : d.Writable names)
    (bytes : List UInt8) (q : List Text) :
    (d.write names bytes).entries.get? q =
      if q = names then some (.file bytes)
      else if q ∈ above names then some .directory else d.entries.get? q := by
  refine (OrderedMap.get?_insert _ names q _).trans ?_
  rw [get?_makeDirectory writable.makeable, above_dropLast writable.2.1]

theorem Sound.write {d : Disk} (sound : d.Sound) {names : List Text}
    (writable : d.Writable names) (bytes : List UInt8) : (d.write names bytes).Sound := by
  have made := sound.makeDirectory writable.makeable
  have known : ∀ q ∈ (d.write names bytes).entries.keys,
      q = names ∨ q ∈ (d.makeDirectory names.dropLast).entries.keys := by
    intro q member
    by_cases here : q = names
    · exact Or.inl here
    · obtain ⟨e, found⟩ := OrderedMap.mem_keys_iff.mp member
      refine Or.inr (OrderedMap.mem_keys_iff.mpr ⟨e, ?_⟩)
      rw [← found]
      exact ((OrderedMap.get?_insert _ names q _).trans (if_neg here)).symm
  refine ⟨OrderedMap.nodup_keys_insert made.distinct _ _, ?_, ?_, sound.current⟩
  · intro q member n inside
    rcases known q member with rfl | old
    · exact writable.1 n inside
    · exact made.named q old n inside
  · intro a more filled member
    have before : (d.makeDirectory names.dropLast).entries.get? a = some .directory := by
      rcases known _ member with rfl | old
      · rw [get?_makeDirectory writable.makeable, above_dropLast writable.2.1,
          if_pos (mem_above.mpr ⟨more, filled, rfl⟩)]
      · exact made.tree a more filled old
    have apart : a ≠ names := by
      intro same
      subst same
      rw [get?_makeDirectory writable.makeable, above_dropLast writable.2.1,
        if_neg (not_mem_above a)] at before
      exact writable.2.2.1 before
    refine (OrderedMap.get?_insert _ names a _).trans ?_
    rw [if_neg apart, before]

/-! ## Deleting a file -/

theorem get?_keep (kept : List Text → Bool) (entries : OrderedMap (List Text) DiskEntry)
    (q : List Text) :
    (⟨entries.entries.filter fun e => kept e.1⟩ : OrderedMap (List Text) DiskEntry).get? q =
      if kept q then entries.get? q else none := by
  obtain ⟨entries⟩ := entries
  dsimp only
  induction entries with
  | nil => simp [OrderedMap.get?]
  | cons e rest ih =>
    obtain ⟨x, y⟩ := e
    rw [List.filter_cons, OrderedMap.get?_mk_cons]
    by_cases stays : kept x = true
    · rw [if_pos stays, OrderedMap.get?_mk_cons, ih]
      by_cases here : q = x
      · simp [here, stays]
      · simp [here]
    · rw [if_neg stays, ih]
      by_cases here : q = x
      · simp [here, stays]
      · simp [here]

theorem dropLeading?_isNone_iff {names q : List Text} :
    (Path.dropLeading? names q).isNone = true ↔ ¬∃ more, q = names ++ more := by
  rw [Option.isNone_iff_eq_none, Option.eq_none_iff_forall_ne_some, not_exists]
  exact forall_congr' fun more => not_congr Path.dropLeading?_eq_some_iff

/-- A file that is deleted is gone; all else is as it was. -/
theorem get?_delete {d : Disk} (sound : d.Sound) {names : List Text} {bytes : List UInt8}
    (file : d.entries.get? names = some (.file bytes)) (q : List Text) :
    (d.delete names).entries.get? q = if q = names then none else d.entries.get? q := by
  refine (get?_keep (fun q => (Path.dropLeading? names q).isNone) d.entries q).trans ?_
  by_cases here : q = names
  · subst here
    have under : ¬ (Path.dropLeading? q q).isNone = true := by
      rw [dropLeading?_isNone_iff, not_not]
      exact ⟨[], (List.append_nil q).symm⟩
    rw [if_neg under, if_pos rfl]
  · rw [if_neg here]
    split
    · rfl
    · next under =>
      rw [dropLeading?_isNone_iff, not_not] at under
      obtain ⟨more, rfl⟩ := under
      have filled : more ≠ [] := by
        intro same
        subst same
        exact here (List.append_nil names)
      symm
      rw [OrderedMap.get?_eq_none_iff]
      intro member
      rw [sound.tree names more filled member] at file
      cases file

theorem Sound.delete {d : Disk} (sound : d.Sound) (names : List Text) : (d.delete names).Sound := by
  have kept := get?_keep (fun q => (Path.dropLeading? names q).isNone) d.entries
  have known : ∀ q ∈ (d.delete names).entries.keys,
      (Path.dropLeading? names q).isNone = true ∧ q ∈ d.entries.keys := by
    intro q member
    obtain ⟨e, found⟩ := OrderedMap.mem_keys_iff.mp member
    have answer := (kept q).symm.trans found
    split at answer
    · next stays => exact ⟨stays, OrderedMap.mem_keys_iff.mpr ⟨e, answer⟩⟩
    · cases answer
  refine ⟨sound.distinct.sublist (List.filter_sublist.map _), ?_, ?_, sound.current⟩
  · exact fun q member => sound.named q (known q member).2
  · intro a more filled member
    obtain ⟨stays, old⟩ := known _ member
    have above : (Path.dropLeading? names a).isNone = true := by
      rw [dropLeading?_isNone_iff] at stays ⊢
      intro found
      obtain ⟨rest, rfl⟩ := found
      exact stays ⟨rest ++ more, List.append_assoc _ _ _⟩
    exact (kept a).trans ((if_pos above).trans (sound.tree a more filled old))

/-! ## Following a path -/

theorem step?_eq (d : Disk) (names : List Text) {n : Text} (notUp : n ≠ ['.', '.']) :
    d.step? names n =
      if d.entries.get? names = some .directory ∧ names ++ [n] ∈ d.entries.keys
      then some (names ++ [n]) else none := by
  have has : d.entries.hasKey (names ++ [n]) = true ↔ names ++ [n] ∈ d.entries.keys := by
    rw [OrderedMap.hasKey, Option.isSome_iff_exists, OrderedMap.mem_keys_iff]
  unfold step? isDirectoryAt
  rw [if_neg notUp]
  by_cases directory : d.entries.get? names = some .directory
  · simp [directory, has]
  · simp [directory]

theorem foldlM_step? {d : Disk} (sound : d.Sound) {parts : List Text}
    (down : ∀ n ∈ parts, n ≠ ['.', '.']) (names : List Text) :
    parts.foldlM d.step? names =
      if parts = [] ∨ names ++ parts ∈ d.entries.keys then some (names ++ parts) else none := by
  induction parts generalizing names with
  | nil => simp
  | cons n rest ih =>
    have inner := ih (fun m member => down m (List.mem_cons_of_mem _ member)) (names ++ [n])
    have whole : (names ++ [n]) ++ rest = names ++ n :: rest := by simp
    rw [whole] at inner
    rw [List.foldlM_cons, step?_eq d names (down n List.mem_cons_self)]
    -- A step checks only what it enters; that the whole way is there tells of every part of it.
    by_cases there : names ++ n :: rest ∈ d.entries.keys
    · have directory : d.entries.get? names = some .directory :=
        sound.tree names (n :: rest) (by simp) there
      have next : names ++ [n] ∈ d.entries.keys := by
        by_cases last : rest = []
        · rw [last] at there
          exact there
        · rw [← whole] at there
          exact OrderedMap.mem_keys_iff.mpr ⟨_, sound.tree (names ++ [n]) rest last there⟩
      rw [if_pos ⟨directory, next⟩, if_pos (Or.inr there)]
      refine inner.trans ?_
      rw [if_pos (Or.inr there)]
    · have absent : ¬(n :: rest = [] ∨ names ++ n :: rest ∈ d.entries.keys) := by simp [there]
      rw [if_neg absent]
      split
      · next entry =>
        refine inner.trans ?_
        have more : rest ≠ [] := by
          intro same
          subst same
          exact there entry.2
        rw [if_neg (by simp [more, there])]
      · rfl

/-- A direct path leads to the entry of its names. -/
theorem entry?_direct {d : Disk} (sound : d.Sound) {p : Path} (direct : p.Direct) :
    d.entry? p = d.entries.get? p.parts := by
  have located := foldlM_step? sound direct.2 []
  rw [List.nil_append] at located
  rw [ entry?, locate?, if_pos direct.1, located]
  split
  · rfl
  · next absent =>
    symm
    exact OrderedMap.get?_eq_none_iff.mpr fun member => absent (Or.inr member)

theorem locate?_direct {d : Disk} (sound : d.Sound) {p : Path} (direct : p.Direct) :
    d.locate? p = if p.parts = [] ∨ p.parts ∈ d.entries.keys then some p.parts else none := by
  have located := foldlM_step? sound direct.2 []
  rw [List.nil_append] at located
  rw [locate?, if_pos direct.1, located]

theorem isFile_iff {d : Disk} (sound : d.Sound) {p : Path} (direct : p.Direct) :
    d.isFile p = true ↔ ∃ bytes, d.entries.get? p.parts = some (.file bytes) := by
  rw [isFile, entry?_direct sound direct]
  constructor
  · intro file
    split at file
    · next bytes found => exact ⟨bytes, found⟩
    · cases file
  · intro found
    obtain ⟨bytes, found⟩ := found
    rw [found]

theorem isDirectory_iff {d : Disk} (sound : d.Sound) {p : Path} (direct : p.Direct) :
    d.isDirectory p = true ↔ d.entries.get? p.parts = some .directory := by
  rw [isDirectory, entry?_direct sound direct, decide_eq_true_iff]

theorem proper_of_isFile {d : Disk} (sound : d.Sound) {p : Path} (direct : p.Direct)
    (file : d.isFile p = true) : p.Proper := by
  obtain ⟨bytes, found⟩ := (isFile_iff sound direct).mp file
  exact fun n part => (sound.named _ (OrderedMap.mem_keys_iff.mpr ⟨_, found⟩) n part).1

theorem isFile_congr {d d' : Disk} {p : Path} (same : d.entry? p = d'.entry? p) :
    d.isFile p = d'.isFile p := by
  unfold isFile
  rw [same]

/-- The text of a file depends on its entry only. -/
theorem text?_congr {d d' : Disk} {p : Path} (same : d.entry? p = d'.entry? p) :
    d.text? p = d'.text? p := by
  unfold text? read
  rw [same]

/-! ## Resolving a path -/

theorem direct_fromRoot {d : Disk} (sound : d.Sound) (p : Path) : (d.fromRoot p).Direct := by
  have down : ∀ (parts names : List Text), (∀ n ∈ names, n ≠ ['.', '.']) →
      ∀ n ∈ parts.foldl (fun names n => if n = ['.', '.'] then names.dropLast else names ++ [n])
        names, n ≠ ['.', '.'] := by
    intro parts
    induction parts with
    | nil => exact fun names fine => fine
    | cons m rest ih =>
      intro names fine
      rw [List.foldl_cons]
      apply ih
      split
      · exact fun n member => fine n (List.dropLast_subset names member)
      · next notUp =>
        intro n member
        rcases List.mem_append.mp member with old | new
        · exact fine n old
        · rw [List.mem_singleton.mp new]
          exact notUp
  refine ⟨?_, down p.parts _ ?_⟩
  · unfold fromRoot Path.isAbsolute
    dsimp only
    split <;> rfl
  · split
    · intro n member
      cases member
    · exact fun n member => (sound.current n member).2

theorem resolve_eq_ok_iff {d : Disk} {p q : Path} : d.resolve p = .ok q ↔
    (∀ n ∈ p.parts, '\x00' ∉ n) ∧ (p.isAbsolute = false → d.isDirectoryAt d.current = true) ∧
      d.fromRoot p = q := by
  unfold resolve
  split
  · next null =>
    obtain ⟨n, member, held⟩ := List.any_eq_true.mp null
    exact iff_of_false nofun fun named => named.1 n member (List.elem_iff.mp held)
  · next named =>
    have each : ∀ n ∈ p.parts, '\x00' ∉ n := fun n member held =>
      named (List.any_eq_true.mpr ⟨n, member, List.elem_iff.mpr held⟩)
    split
    · next lost =>
      simp only [Bool.and_eq_true, Bool.not_eq_true'] at lost
      refine iff_of_false nofun fun found => ?_
      exact Bool.false_ne_true (lost.2.symm.trans (found.2.1 lost.1))
    · next placed =>
      have here : p.isAbsolute = false → d.isDirectoryAt d.current = true := by simpa using placed
      rw [and_iff_right each, and_iff_right here, Except.ok.injEq]

theorem direct_of_resolve {d : Disk} (sound : d.Sound) {p q : Path} (found : d.resolve p = .ok q) :
    q.Direct := by
  rw [← (resolve_eq_ok_iff.mp found).2.2]
  exact direct_fromRoot sound p

end Disk

end Traceability
