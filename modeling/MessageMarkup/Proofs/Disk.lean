import Mathlib.Data.List.Basic
import MessageMarkup.Disk

/-!
# Writing changes one file

A path leads through folders and links, and writing a file neither makes nor removes any of these.
So after a file has been written every path leads where it led before, and what is found there is
what was written if the path leads to that file, by whatever way, and what was there before if it
does not (`WorkingFolder.Rewritten.read?_eq`). One file has a path in the working folder and another
one from the root on (`WorkingFolder.resolve?_path_append`).
-/

namespace MessageMarkup

namespace Disk

variable {d e : Disk} {place other : Place} {names : List String}

/-! ## What is on a disk -/

/-- What is on a disk after a file has been put there. -/
theorem entryAt?_put (hplace : place ≠ []) (d : Disk) (bytes : List UInt8) (other : Place) :
    (d.put place bytes).entryAt? other =
      if other = place then some (.file bytes) else d.entryAt? other := by
  unfold entryAt? put
  split
  · -- At the root there is a folder on both disks.
    rename_i hroot
    rw [List.isEmpty_iff] at hroot
    rw [hroot, if_neg hplace.symm]
  · dsimp only
    rw [List.find?_cons]
    split
    · rename_i heq
      rw [if_pos (beq_iff_eq.mp heq).symm]
      rfl
    · rename_i hne
      have hne : other ≠ place := fun heq => beq_eq_false_iff_ne.mp hne heq.symm
      rw [if_neg hne, List.find?_filter]
      refine congrArg (Option.map _) (congrArg (List.find? · d.entries) (funext fun entry => ?_))
      by_cases heq : entry.1 = other
      · simp only [heq, beq_self_eq_true, bne_iff_ne.mpr hne, and_self, decide_true]
      · simp only [beq_false_of_ne heq, Bool.false_eq_true, and_false, decide_false]

/-- There is a folder at a place if and only if that is what is there. -/
theorem isFolder_iff : d.isFolder place = true ↔ d.entryAt? place = some .folder :=
  beq_iff_eq

/-- Where there is a folder there is no link. -/
theorem linkAt?_of_isFolder (h : d.isFolder place = true) : d.linkAt? place = none := by
  unfold linkAt?
  rw [isFolder_iff.mp h]

/-- Two disks have the same folders and the same links. -/
structure Alike (d e : Disk) : Prop where
  /-- What is a folder on one of them is a folder on the other. -/
  isFolder_eq : ∀ place, e.isFolder place = d.isFolder place
  /-- What is a link on one of them is that link on the other. -/
  linkAt?_eq : ∀ place, e.linkAt? place = d.linkAt? place

/-- A file is no folder and no link, and takes the place of none. -/
theorem alike_put (hfolder : d.isFolder place = false) (hlink : d.linkAt? place = none)
    (bytes : List UInt8) : d.Alike (d.put place bytes) := by
  have hplace : place ≠ [] := by
    rintro rfl
    exact Bool.false_ne_true (hfolder.symm.trans (isFolder_iff.mpr rfl))
  have hentry := entryAt?_put hplace d bytes
  constructor
  · intro other
    by_cases heq : other = place
    · rw [heq, hfolder, isFolder, hentry, if_pos rfl]
      rfl
    · rw [isFolder, hentry, if_neg heq, isFolder]
  · intro other
    by_cases heq : other = place
    · rw [heq, hlink, linkAt?, hentry, if_pos rfl]
    · rw [linkAt?, hentry, if_neg heq, linkAt?]

/-! ## Where paths lead -/

/-- On two disks with the same folders and links names lead the same way. -/
theorem Alike.follow_eq (h : d.Alike e) (place : Place) (names : List String) :
    e.follow place names = d.follow place names := by
  induction names generalizing place with
  | nil => rfl
  | cons name rest ih =>
    unfold follow
    simp only [h.isFolder_eq, h.linkAt?_eq, ih]

/-- So they do through any number of links. -/
theorem Alike.reach_eq (h : d.Alike e) (links : ℕ) (place : Place) (names : List String) :
    e.reach links place names = d.reach links place names := by
  induction links generalizing place names with
  | zero =>
    unfold reach
    rw [h.follow_eq]
  | succ links ih =>
    unfold reach
    rw [h.follow_eq]
    simp only [ih]

/-- Names do not lead to a link without going on behind it. -/
theorem linkAt?_of_follow {start : Place} (h : d.follow start names = .to place) :
    d.linkAt? place = none := by
  fun_induction follow d start names with
  | case1 | case2 => exact absurd h Way.noConfusion
  | case3 start name rest hfolder hstay ih => exact ih h
  | case4 start name rest hfolder hstay hback ih => exact ih h
  | case5 => exact absurd h Way.noConfusion
  | case6 start name rest hfolder hstay hback hlink hlast =>
    obtain rfl := Way.to.inj h
    exact hlink
  | case7 start name rest hfolder hstay hback hlink hlast ih => exact ih h

/-- No more do they where they are followed through links. -/
theorem linkAt?_of_reach {links : ℕ} {start : Place} (h : d.reach links start names = some place) :
    d.linkAt? place = none := by
  fun_induction reach d links start names with
  | case1 | case3 => exact absurd h.symm (Option.some_ne_none place)
  | case2 links start names other hfollow =>
    obtain rfl := Option.some.inj h
    exact linkAt?_of_follow hfollow
  | case4 start names folder target rest hfollow links ih => exact ih h

/-- A name that leads on to something in a folder. -/
structure IsName (name : String) : Prop where
  /-- It is not empty. -/
  ne_empty : name ≠ ""
  /-- It is not the dot, which leads nowhere else. -/
  ne_dot : name ≠ "."
  /-- It is not the two dots, which lead back. -/
  ne_dots : name ≠ ".."
  /-- No path is divided inside it. -/
  not_mem : '/' ∉ name.toList

/-- A name of a folder leads into it. -/
theorem follow_cons {name : String} (hplace : d.isFolder place = true) (hname : IsName name)
    (hfolder : d.isFolder (place ++ [name]) = true) (hne : names ≠ []) :
    d.follow place (name :: names) = d.follow (place ++ [name]) names := by
  rw [follow, hplace, beq_false_of_ne hname.ne_empty, beq_false_of_ne hname.ne_dot,
    beq_false_of_ne hname.ne_dots, linkAt?_of_isFolder hfolder, List.isEmpty_eq_false_iff.mpr hne]
  rfl

/-- Names that lead through folders are passed one after another. -/
theorem follow_append {folders : List String} (hnames : ∀ name ∈ folders, IsName name)
    (hfolders : ∀ above, above <+: folders → d.isFolder (place ++ above) = true)
    (hne : names ≠ []) : d.follow place (folders ++ names) = d.follow (place ++ folders) names := by
  induction folders generalizing place with
  | nil => rw [List.nil_append, List.append_nil]
  | cons name rest ih =>
    have hplace : d.isFolder place = true := by
      have hnil := hfolders [] List.nil_prefix
      rwa [List.append_nil] at hnil
    have hfolder := hfolders [name] (List.prefix_append [name] rest)
    rw [List.cons_append, follow_cons hplace (hnames name List.mem_cons_self) hfolder
      (List.append_ne_nil_of_right_ne_nil rest hne), List.append_cons place name rest]
    refine ih (fun n hn => hnames n (List.mem_cons_of_mem name hn)) fun above habove => ?_
    rw [List.append_assoc]
    exact hfolders (name :: above) (List.cons_prefix_cons.mpr ⟨rfl, habove⟩)

/-- A path is divided at a slash. -/
theorem names_append (path path' : String) :
    Disk.names (path ++ "/" ++ path') = Disk.names path ++ Disk.names path' := by
  have hslash : "/".toList = ['/'] := rfl
  unfold Disk.names
  rw [String.toList_append, String.toList_append, hslash, List.append_assoc, List.singleton_append,
    List.splitOn_append_cons_self, List.map_append]

/-- A path leads through some names. -/
theorem names_ne_nil (path : String) : Disk.names path ≠ [] :=
  mt List.map_eq_nil_iff.mp (List.splitOn_ne_nil _ _)

/-- A path that joins some names leads through these. -/
theorem names_intercalate {ns : List String} (hne : ns ≠ []) (h : ∀ n ∈ ns, IsName n) :
    Disk.names (String.intercalate "/" ns) = ns := by
  have hsep : "/".toList = ['/'] := rfl
  have hslash : ∀ cs ∈ ns.map String.toList, '/' ∉ cs := by
    intro cs hcs
    obtain ⟨n, hn, rfl⟩ := List.mem_map.mp hcs
    exact (h n hn).not_mem
  unfold Disk.names
  rw [String.toList_intercalate, hsep,
    List.splitOn_intercalate '/' hslash (mt List.map_eq_nil_iff.mp hne), List.map_map]
  exact (List.map_congr_left fun n _ => String.ofList_toList).trans (List.map_id ns)

end Disk

namespace WorkingFolder

variable {f g : WorkingFolder} {place : Place} {path : String} {bytes : List UInt8}

/-! ## Paths from the root on -/

/-- The working folder is where it is said to be. -/
structure Stands (f : WorkingFolder) : Prop where
  /-- It and the folders around it have names. -/
  isName : ∀ name ∈ f.place, Disk.IsName name
  /-- They are folders. -/
  isFolder : ∀ above, above <+: f.place → f.disk.isFolder above = true

/-- The path of the working folder leads from the root to it. -/
theorem Stands.follow_path_append (h : f.Stands) {names : List String} (hne : names ≠ []) :
    f.disk.follow [] (Disk.names f.path ++ names) = f.disk.follow f.place names := by
  have hroot : f.disk.isFolder [] = true := h.isFolder [] List.nil_prefix
  have hslash : f.path = "" ++ "/" ++ String.intercalate "/" f.place := by
    unfold WorkingFolder.path
    rw [String.empty_append]
  have hstay (ns : List String) : f.disk.follow [] ("" :: ns) = f.disk.follow [] ns := by
    rw [Disk.follow, hroot]
    rfl
  rw [hslash, Disk.names_append]
  change f.disk.follow [] ("" :: (Disk.names (String.intercalate "/" f.place) ++ names)) = _
  rw [hstay]
  by_cases hplace : f.place = []
  · rw [hplace]
    exact hstay names
  · rw [Disk.names_intercalate hplace h.isName, Disk.follow_append h.isName (fun above habove => by
      rw [List.nil_append]
      exact h.isFolder above habove) hne, List.nil_append]

/-- A path that starts in the working folder leads to the same place from the root on, behind the
path of the working folder. -/
theorem resolve?_path_append (h : f.Stands) (hpath : path.toList.head? ≠ some '/') :
    f.resolve? (f.path ++ "/" ++ path) = f.resolve? path := by
  have hhead : (f.path ++ "/" ++ path).toList.head? = some '/' := by
    unfold WorkingFolder.path
    rw [String.toList_append, String.toList_append, String.toList_append]
    rfl
  unfold resolve? Disk.start
  rw [if_pos hhead, if_neg hpath, Disk.names_append, Disk.reach, Disk.reach,
    h.follow_path_append (Disk.names_ne_nil path)]

/-! ## Writing -/

/-- A path leads to a file that can be written, be it there or not. -/
def IsWritable (f : WorkingFolder) (path : String) : Prop :=
  ∃ place, f.resolve? path = some place ∧ f.disk.isFolder place = false ∧ place ∉ f.disk.locked

/-- A path can be written to if and only if it leads to such a file. -/
theorem isSome_write?_iff (bytes : List UInt8) :
    (f.write? path bytes).isSome ↔ f.IsWritable path := by
  unfold write? IsWritable
  cases f.resolve? path with
  | none => exact ⟨nofun, nofun⟩
  | some place =>
    simp only [Option.bind_eq_bind, Option.bind_some, Option.some.injEq, exists_eq_left']
    rw [← Bool.not_eq_true (f.disk.isFolder place), ← List.contains_iff_mem, ← not_or,
      ← Bool.or_eq_true]
    split
    · rename_i hblocked
      exact ⟨nofun, fun hfree => absurd hblocked hfree⟩
    · rename_i hfree
      exact ⟨fun _ => hfree, fun _ => rfl⟩

/-- A working folder is another one with some bytes in the file at a place. -/
structure Rewritten (f g : WorkingFolder) (place : Place) (bytes : List UInt8) : Prop where
  /-- The file has the bytes, and nothing else has been changed, added or removed. -/
  entryAt?_eq : ∀ other, g.disk.entryAt? other =
    if other = place then some (.file bytes) else f.disk.entryAt? other
  /-- Every path leads where it led. -/
  resolve?_eq : ∀ path, g.resolve? path = f.resolve? path

/-- Writing to a path writes the file that it leads to. -/
theorem rewritten_of_write? (h : f.write? path bytes = some g) :
    ∃ place, f.resolve? path = some place ∧ f.Rewritten g place bytes := by
  unfold write? at h
  obtain ⟨place, hplace, h⟩ := Option.bind_eq_some_iff.mp h
  split at h
  · exact absurd h.symm (Option.some_ne_none g)
  · rename_i hfree
    rw [Bool.or_eq_true, not_or, Bool.not_eq_true] at hfree
    obtain rfl := Option.some.inj h
    have halike := Disk.alike_put hfree.1 (Disk.linkAt?_of_reach hplace) bytes
    refine ⟨place, hplace, ?_, fun path => halike.reach_eq _ _ _⟩
    refine Disk.entryAt?_put ?_ f.disk bytes
    rintro rfl
    exact Bool.false_ne_true (hfree.1.symm.trans (Disk.isFolder_iff.mpr rfl))

/-- After a file has been written it is found with its new bytes at every path that leads to it, and
at any other path is what was there before. -/
theorem Rewritten.read?_eq (h : f.Rewritten g place bytes) (path : String) :
    g.read? path = if f.resolve? path = some place then some bytes else f.read? path := by
  unfold read?
  rw [h.resolve?_eq]
  cases hpath : f.resolve? path with
  | none =>
    rw [if_neg nofun]
    rfl
  | some other =>
    rw [Option.bind_some, Option.bind_some]
    unfold Disk.fileAt?
    rw [h.entryAt?_eq]
    by_cases heq : other = place
    · rw [if_pos heq, if_pos (congrArg some heq)]
    · rw [if_neg heq, if_neg fun hsome => heq (Option.some.inj hsome)]

end WorkingFolder

end MessageMarkup
