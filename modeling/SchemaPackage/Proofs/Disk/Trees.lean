import SchemaPackage.Proofs.Disk.Entries

/-!
Disks that are trees: whatever is there is in a folder. Work by paths keeps a disk a tree, and on a
tree a path that never goes up finds all that has its place below a folder. So what is removed under
such a path is gone with all that was below it, and what is made under it is found.
-/
namespace SchemaPackage

open Text

namespace Path

variable {p : Path} {home l : Location} {name : Text}

theorem join_pieces_ne_nil (p : Path) (name : Text) : (p.join name).pieces ≠ [] := by
  unfold join
  dsimp only
  split
  · exact split_ne_nil '/' name
  · exact List.append_ne_nil_of_right_ne_nil _ (split_ne_nil '/' name)

theorem Descends.stump (hp : p.Descends) : ∀ piece ∈ p.stump, piece ≠ ".." := fun piece hpiece =>
  hp piece (p.stump_subset hpiece)

/-- The way of a path that never goes up leads down to its place. -/
theorem Descends.prefix_of_onWay (hp : p.Descends) (h : p.OnWay home l) : l <+: p.place home := by
  obtain ⟨front, ⟨rest, hrest⟩, rfl⟩ := h
  rw [place, ← hrest, walk_append]
  refine prefix_walk (fun piece hpiece => hp piece ?_) _
  rw [← hrest]
  exact List.mem_append_right front hpiece

/-- A path is usable if it is no longer than a usable one that begins in the same way, and has
nothing forbidden at its end. -/
theorem isUsable_append {front names names' : List Text} (hnames : names ≠ [])
    (hnames' : names' ≠ [])
    (hlength : (Text.joined "/" names').byteLength ≤ (Text.joined "/" names).byteLength)
    (hnul : '\x00' ∉ Text.joined "/" names')
    (h : (Path.mk (front ++ names)).isUsable = true) :
    (Path.mk (front ++ names')).isUsable = true := by
  obtain ⟨before, hbefore⟩ : ∃ before, ∀ names, names ≠ [] →
      (Path.mk (front ++ names)).text = before ++ Text.joined "/" names := by
    by_cases hfront : front = []
    · rw [hfront]
      exact ⟨[], fun _ _ => rfl⟩
    · exact ⟨_, fun _ hnames => joined_append hfront hnames⟩
  unfold isUsable at h ⊢
  rw [hbefore names hnames, byteLength_append, Bool.and_eq_true, decide_eq_true_iff,
    Bool.not_eq_true', List.contains_eq_mem, decide_eq_false_iff_not, List.mem_append, not_or] at h
  rw [hbefore names' hnames', byteLength_append, Bool.and_eq_true, decide_eq_true_iff,
    Bool.not_eq_true', List.contains_eq_mem, decide_eq_false_iff_not, List.mem_append, not_or]
  exact ⟨le_trans (Nat.add_le_add_left hlength _) h.1, h.2.1, hnul⟩

/-- What is above a usable path is usable, with or without a slash at its end. -/
theorem isUsable_above (hname : IsName name) (h : (p.join name).isUsable = true) :
    p.isUsable = true := by
  by_cases hlast : p.pieces.getLast? = some []
  · obtain ⟨front, hfront⟩ := List.getLast?_eq_some_iff.mp hlast
    have hjoin : p.join name = ⟨front ++ [name]⟩ := by
      have hpieces := pieces_join p hname
      rw [stump, if_pos hlast, hfront, List.dropLast_concat] at hpieces
      rw [← hpieces]
    have hp : p = ⟨front ++ [[]]⟩ := by rw [← hfront]
    rw [hjoin] at h
    rw [hp]
    exact isUsable_append (List.cons_ne_nil _ _) (List.cons_ne_nil _ _) (Nat.zero_le _)
      List.not_mem_nil h
  · by_cases hne : p.pieces = []
    · have hp : p = ⟨[]⟩ := by rw [← hne]
      rw [hp]
      decide
    · exact isUsable_of_join hname (if_neg hlast) hne h

end Path

namespace Disk

variable {d d' : Disk} {p target : Path} {l m here : Location} {name : Text} {c : Content}
  {pieces : List Text}

/-- Whatever is there is in a folder. -/
def Rooted (d : Disk) : Prop :=
  ∀ l name, d.entryAt? (l ++ [name]) ≠ none → d.isFolderAt l = true

theorem rooted_of_forall (h : ∀ e ∈ d.entries.toList, d.isFolderAt e.1.dropLast = true) :
    d.Rooted := by
  intro l name hsome
  obtain ⟨entry, hentry⟩ := Option.ne_none_iff_exists'.mp hsome
  rw [entryAt?_of_ne_nil (by simp), ← Std.ExtTreeMap.mem_toList_iff_getElem?_eq_some] at hentry
  have hfolder := h _ hentry
  rwa [List.dropLast_concat] at hfolder

theorem Rooted.isFolderAt_of_prefix (hd : d.Rooted) (h : d.entryAt? l ≠ none) (hm : m <+: l)
    (hne : m ≠ l) : d.isFolderAt m = true := by
  obtain ⟨rest, rfl⟩ := hm
  induction rest using List.reverseRecOn with
  | nil => exact absurd (List.append_nil m).symm hne
  | append_singleton rest name ih =>
    have hfolder : d.isFolderAt (m ++ rest) = true := by
      refine hd (m ++ rest) name ?_
      rwa [List.append_assoc]
    by_cases hrest : rest = []
    · rwa [hrest, List.append_nil] at hfolder
    · refine ih ?_ fun heq => hrest ?_
      · rw [beq_iff_eq.mp hfolder]
        exact Option.some_ne_none _
      · exact List.append_cancel_left (heq.symm.trans (List.append_nil m).symm)

theorem Rooted.isFolderAt_above (hd : d.Rooted) (h : d.isFolderAt l = true) (hm : m <+: l) :
    d.isFolderAt m = true := by
  by_cases heq : m = l
  · rwa [heq]
  · refine hd.isFolderAt_of_prefix ?_ hm heq
    rw [beq_iff_eq.mp h]
    exact Option.some_ne_none _

/-- Nothing is below a place where no folder is. -/
theorem Rooted.entryAt?_eq_none (hd : d.Rooted) (h : d.entryAt? l = none) (hl : l <+: m) :
    d.entryAt? m = none := by
  by_contra hsome
  by_cases heq : l = m
  · exact hsome (heq ▸ h)
  · have hfolder := hd.isFolderAt_of_prefix hsome hl heq
    rw [isFolderAt, h] at hfolder
    cases hfolder

/-- A way goes on from a folder by one piece. -/
theorem follow?_cons (hhere : d.isFolderAt here = true) (piece : Text) (rest : List Text) :
    d.follow? here (piece :: rest) = d.follow? (Path.walk here [piece]) rest := by
  rw [follow?, step?, hhere]
  by_cases hdot : (piece.isEmpty || piece == ".") = true
  · rw [if_pos hdot, Path.walk_skip hdot]
    rfl
  · by_cases hup : (piece == "..") = true
    · rw [if_neg hdot, if_pos hup, Path.walk_up hdot hup]
      rfl
    · rw [if_neg hdot, if_neg hup, Path.walk_down hdot hup]
      rfl

/-- A way that leads to a folder starts from one. -/
theorem isFolderAt_of_follow? (h : d.follow? here pieces = some l) (hl : d.isFolderAt l = true) :
    d.isFolderAt here = true := by
  cases pieces with
  | nil => rwa [Option.some.inj h]
  | cons piece rest =>
    obtain ⟨there, hstep, _⟩ := Option.bind_eq_some_iff.mp h
    unfold step? at hstep
    cases hhere : d.isFolderAt here with
    | true => rfl
    | false =>
      rw [hhere] at hstep
      cases hstep

theorem Rooted.follow?_eq (hd : d.Rooted) (hpieces : ∀ piece ∈ pieces, piece ≠ "..")
    (h : d.isFolderAt (Path.walk here pieces) = true) :
    d.follow? here pieces = some (Path.walk here pieces) := by
  induction pieces generalizing here with
  | nil => rfl
  | cons piece rest ih =>
    have hrest := (List.forall_mem_cons.mp hpieces).2
    have hhere : d.isFolderAt here = true :=
      hd.isFolderAt_above h (Path.prefix_walk hpieces here)
    have hwalk : Path.walk here (piece :: rest) = Path.walk (Path.walk here [piece]) rest :=
      Path.walk_append here [piece] rest
    rw [hwalk] at h ⊢
    rw [follow?_cons hhere]
    exact ih hrest h

/-- A path goes one step further than to its folder. -/
theorem locate?_join (hname : IsName name) (husable : (p.join name).isUsable = true)
    (hfollow : d.follow? (d.start p) p.stump = some (p.place d.home))
    (h : d.isFolderAt (p.place d.home) = true) :
    d.locate? (p.join name) = some ((p.join name).place d.home) := by
  have hstart : d.start (p.join name) = d.start p := by
    rw [start, Path.isAbsolute_join p hname, start]
  have hproper : (name.isEmpty || name == ".") = false := by
    rw [Bool.or_eq_false_iff]
    exact ⟨List.isEmpty_eq_false_iff.mpr hname.ne_nil, beq_eq_false_iff_ne.mpr hname.ne_dot⟩
  rw [locate?, if_pos husable, Path.pieces_join p hname, hstart, follow?_append, hfollow,
    Path.place_join hname, Option.bind_some, follow?, step?, h, hproper,
    beq_eq_false_iff_ne.mpr hname.ne_dots]
  rfl

/-- A path that leads to a folder leads to what is in it. -/
theorem locate?_join_of_isFolder (hname : IsName name) (husable : (p.join name).isUsable = true)
    (h : d.isFolder p = true) : d.locate? (p.join name) = some ((p.join name).place d.home) := by
  obtain ⟨hlocate, hfolder⟩ := isFolder_iff_locate?.mp h
  have hfollow : d.follow? (d.start p) p.pieces = some (p.place d.home) := by
    unfold locate? at hlocate
    split at hlocate
    · exact hlocate
    · cases hlocate
  refine locate?_join hname husable ?_ hfolder
  unfold Path.stump
  split
  · -- The slash at the end is the last step of the way, and leads nowhere.
    rename_i hlast
    obtain ⟨front, hfront⟩ := List.getLast?_eq_some_iff.mp hlast
    rw [hfront, follow?_append] at hfollow
    obtain ⟨there, hthere, hstep⟩ := Option.bind_eq_some_iff.mp hfollow
    have hplace : p.place d.home = there := by
      rw [follow?_eq_some hstep]
      rfl
    rw [hfront, List.dropLast_concat, hthere, hplace]
  · exact hfollow

/-- What is seen in a folder can be read. -/
theorem exists_content?_of_mem_seen (hname : IsName name) (h : name ∈ d.seen p) :
    ∃ c, d.content? (p.join name) = some c := by
  obtain ⟨husable, hfolder, c, hfile⟩ := mem_seen.mp h
  refine ⟨c, ?_⟩
  rw [content?_eq, locate?_join_of_isFolder hname husable hfolder, Option.bind_some,
    Path.place_join hname]
  exact hfile

/-- A path into a folder that is there leads to its place. -/
theorem Rooted.locate?_join (hd : d.Rooted) (htarget : target.Descends) (hname : IsName name)
    (husable : (target.join name).isUsable = true)
    (h : d.isFolderAt (target.place d.home) = true) :
    d.locate? (target.join name) = some ((target.join name).place d.home) := by
  have hplace : Path.walk (d.start target) target.stump = target.place d.home :=
    Path.walk_stump target _
  refine Disk.locate?_join hname husable ?_ h
  rw [← hplace] at h ⊢
  exact hd.follow?_eq htarget.stump h

theorem Rooted.entry?_join (hd : d.Rooted) (htarget : target.Descends) (hname : IsName name)
    (husable : (target.join name).isUsable = true) :
    d.entry? (target.join name) = d.entryAt? ((target.join name).place d.home) := by
  unfold entry?
  cases hfolder : d.isFolderAt (target.place d.home) with
  | true => rw [hd.locate?_join htarget hname husable hfolder, Option.bind_some]
  | false =>
    have hnone : d.entryAt? ((target.join name).place d.home) = none := by
      rw [Path.place_join hname]
      by_contra hsome
      rw [hd _ _ hsome] at hfolder
      cases hfolder
    cases hlocate : d.locate? (target.join name) with
    | none => exact hnone.symm
    | some l => rw [Option.bind_some, locate?_eq_some hlocate]

/-- Wherever a path leads to, there is a folder, or a folder that it would be in. -/
theorem Rooted.follow?_parent (hd : d.Rooted) (hpieces : pieces ≠ [])
    (h : d.follow? here pieces = some l) :
    d.isFolderAt l = true ∨ ∃ l' name, l = l' ++ [name] ∧ d.isFolderAt l' = true := by
  induction pieces generalizing here with
  | nil => exact absurd rfl hpieces
  | cons piece rest ih =>
    obtain ⟨there, hstep, hrest⟩ := Option.bind_eq_some_iff.mp h
    by_cases hne : rest = []
    · rw [hne] at hrest
      obtain rfl := Option.some.inj hrest
      unfold step? at hstep
      cases hhere : d.isFolderAt here with
      | false =>
        rw [hhere] at hstep
        cases hstep
      | true =>
        rw [hhere, if_neg (by decide)] at hstep
        split at hstep
        · obtain rfl := Option.some.inj hstep
          exact Or.inl hhere
        · split at hstep
          · obtain rfl := Option.some.inj hstep
            exact Or.inl (hd.isFolderAt_above hhere (List.dropLast_prefix here))
          · exact Or.inr ⟨here, piece, (Option.some.inj hstep).symm, hhere⟩
    · exact ih hne hrest

/-- A tree with something more in one of its folders. -/
theorem Rooted.put (hd : d.Rooted) (hm : d.isFolderAt m = true) (entry : Entry)
    (hfolder : ∀ l, d.isFolderAt l = true → (d.put (m ++ [name]) entry).isFolderAt l = true) :
    (d.put (m ++ [name]) entry).Rooted := by
  intro l other hsome
  refine hfolder l ?_
  rw [entryAt?_put (by simp)] at hsome
  split at hsome
  · rename_i heq
    rwa [(List.append_inj' heq rfl).1]
  · exact hd l other hsome

theorem Rooted.write? (hd : d.Rooted) (hp : p.pieces ≠ []) (h : d.write? p c = some d') :
    d'.Rooted := by
  have hfolders := isFolderAt_of_write? h
  obtain ⟨hlocate, hne, hfolder, rfl⟩ := write?_eq_some h
  have hfollow : d.follow? (d.start p) p.pieces = some (p.place d.home) := by
    unfold locate? at hlocate
    split at hlocate
    · exact hlocate
    · cases hlocate
  rcases hd.follow?_parent hp hfollow with hthere | ⟨m, name, hplace, hm⟩
  · rw [hthere] at hfolder
    cases hfolder
  · rw [hplace] at hfolders ⊢
    exact hd.put hm _ fun l hl => (hfolders l).trans hl

theorem isFolderAt_put_folder (hl : l ≠ []) (hm : d.isFolderAt m = true) :
    (d.put l .folder).isFolderAt m = true := by
  rw [isFolderAt, entryAt?_put hl]
  split
  · rfl
  · exact hm

theorem isFolderAt_put_self (hl : l ≠ []) : (d.put l .folder).isFolderAt l = true := by
  rw [isFolderAt, entryAt?_put hl, if_pos rfl]
  rfl

theorem Rooted.makeFrom (hd : d.Rooted) (hhere : d.isFolderAt here = true) :
    (Disk.makeFrom here d pieces).1.Rooted := by
  fun_induction Disk.makeFrom here d pieces with
  | case1 | case5 | case7 => exact hd
  | case2 here d piece rest hdot ih => exact ih hd hhere
  | case3 here d piece rest hdot hup ih =>
    exact ih hd (hd.isFolderAt_above hhere (List.dropLast_prefix here))
  | case4 here d piece rest hdot hup there hthere ih => exact ih hd (beq_iff_eq.mpr hthere)
  | case6 here d piece rest hdot hup there hnone htakes ih =>
    have hne : there ≠ [] := List.append_ne_nil_of_right_ne_nil here (List.cons_ne_nil piece [])
    exact ih (hd.put hhere _ fun l hl => isFolderAt_put_folder hne hl) (isFolderAt_put_self hne)

theorem Rooted.makeFolders (hd : d.Rooted) (hstart : d.isFolderAt (d.start p) = true) :
    (d.makeFolders p).1.Rooted := by
  unfold Disk.makeFolders
  split
  · exact hd.makeFrom hstart
  · exact hd

theorem Rooted.removeBelow (hd : d.Rooted) (l : Location) : (d.removeBelow l).Rooted := by
  intro m name hsome
  have hne : m ++ [name] ≠ [] := by simp
  rw [entryAt?_removeBelow hne] at hsome
  obtain ⟨entry, hentry⟩ := Option.ne_none_iff_exists'.mp hsome
  obtain ⟨hbefore, hkept⟩ := Option.filter_eq_some_iff.mp hentry
  have hfolder : d.isFolderAt m = true := by
    refine hd m name ?_
    rw [hbefore]
    exact Option.some_ne_none _
  by_cases hroot : m = []
  · rw [hroot]
    rfl
  · rw [isFolderAt, entryAt?_removeBelow hroot, beq_iff_eq.mp hfolder, Option.filter_some, if_pos]
    · rfl
    · -- What stays is not below the folder, and neither is the folder that it is in.
      by_contra hgone
      have hbelow : l <+: m ∧ m ≠ l := by
        simpa [and_comm] using hgone
      have hlonger : l <+: m ++ [name] := hbelow.1.trans (List.prefix_append m [name])
      rw [List.isPrefixOf_iff_prefix.mpr hlonger, Bool.not_true, Bool.or_false,
        decide_eq_true_iff] at hkept
      have hlength := hbelow.1.length_le
      rw [← hkept, List.length_append, List.length_singleton] at hlength
      omega

/-- An empty folder can be taken out of a tree. -/
theorem Rooted.remove (hd : d.Rooted) (h : ∀ name, d.entryAt? (l ++ [name]) = none) :
    (d.remove l).Rooted := by
  intro m name hsome
  have hne : m ++ [name] ≠ [] := by simp
  rw [entryAt?_remove hne] at hsome
  split at hsome
  · exact absurd rfl hsome
  · have hfolder := hd m name hsome
    by_cases hroot : m = []
    · rw [hroot]
      rfl
    · rw [isFolderAt, entryAt?_remove hroot]
      split
      · rename_i heq
        rw [heq] at hsome
        exact absurd (h name) hsome
      · exact hfolder

theorem entryAt?_removeBelow_append (d : Disk) (l : Location) (name : Text) :
    (d.removeBelow l).entryAt? (l ++ [name]) = none := by
  have hne : l ++ [name] ≠ [] := by simp
  rw [entryAt?_removeBelow hne, Option.filter_eq_none_iff]
  intro entry _
  have hbelow : l.isPrefixOf (l ++ [name]) = true :=
    List.isPrefixOf_iff_prefix.mpr (List.prefix_append l [name])
  simp [hbelow]

theorem Rooted.removeFolder (hd : d.Rooted) (p : Path) : (d.removeFolder p).1.Rooted := by
  unfold Disk.removeFolder
  split
  · exact hd
  · rename_i l _
    split
    · exact hd
    · dsimp only
      split
      · exact hd.removeBelow l
      · split
        · exact hd.removeBelow l
        · exact (hd.removeBelow l).remove (entryAt?_removeBelow_append d l)

/-- With a folder goes all that is below it. -/
theorem entryAt?_remove_removeBelow (hl : l ≠ []) :
    ((d.removeBelow l).remove l).entryAt? m = if l <+: m then none else d.entryAt? m := by
  by_cases hm : m = []
  · have hroot : ¬ l <+: [] := by rwa [List.prefix_nil]
    rw [hm, if_neg hroot]
    rfl
  · rw [entryAt?_remove hm, entryAt?_removeBelow hm]
    by_cases heq : m = l
    · rw [if_pos heq, if_pos (by rw [heq])]
    · rw [if_neg heq, decide_eq_false heq, Bool.false_or]
      by_cases hbelow : l <+: m
      · rw [if_pos hbelow, List.isPrefixOf_iff_prefix.mpr hbelow]
        cases d.entryAt? m <;> rfl
      · rw [if_neg hbelow, Bool.eq_false_iff.mpr (mt List.isPrefixOf_iff_prefix.mp hbelow)]
        cases d.entryAt? m <;> rfl

/-- A folder is removed under a path that never goes up, with all that is below it. -/
theorem Rooted.removeFolder_join (hd : d.Rooted) (htarget : target.Descends) (hname : IsName name)
    (h : d.isFolder (target.join name) = true) :
    (d.removeFolder (target.join name)).2 = true ∧ ∀ m,
      (d.removeFolder (target.join name)).1.entryAt? m =
        if (target.join name).place d.home <+: m then none else d.entryAt? m := by
  have hplace : (target.join name).place d.home = target.place d.home ++ [name] :=
    Path.place_join hname
  have hne : (target.join name).place d.home ≠ [] := by
    rw [hplace]
    simp
  rw [isFolder, entry?, beq_iff_eq] at h
  obtain ⟨l, hlocate, hfolder⟩ := Option.bind_eq_some_iff.mp h
  have husable : (target.join name).isUsable = true := isUsable_of_locate? hlocate
  have hl := locate?_eq_some hlocate
  subst hl
  have hisFolder : d.isFolderAt ((target.join name).place d.home) = true := beq_iff_eq.mpr hfolder
  have habove : d.isFolderAt (target.place d.home) = true := by
    rw [hplace] at hisFolder
    exact hd.isFolderAt_above hisFolder (List.prefix_append _ [name])
  have hstays : (d.removeBelow ((target.join name).place d.home)).isFolderAt
      (target.place d.home) = true := by
    have hsome : (d.removeBelow ((target.join name).place d.home)).isFolderAt
        ((target.join name).place d.home) = true :=
      isFolderAt_removeBelow hisFolder
    refine (hd.removeBelow _).isFolderAt_above hsome ?_
    rw [hplace]
    exact List.prefix_append _ [name]
  have hfound := (hd.removeBelow ((target.join name).place d.home)).locate?_join htarget hname
    husable hstays
  have hlast : (((target.join name).pieces.filter (!·.isEmpty)).getLastD [] == ".") = false := by
    have hkept : [name].filter (!·.isEmpty) = [name] := by
      rw [List.filter_singleton, List.isEmpty_eq_false_iff.mpr hname.ne_nil]
      rfl
    rw [Path.pieces_join target hname, List.filter_append, hkept, List.getLastD_concat]
    exact beq_eq_false_iff_ne.mpr hname.ne_dot
  unfold Disk.removeFolder
  rw [hlocate]
  dsimp only
  rw [hisFolder, hfound, hlast]
  exact ⟨rfl, fun m => entryAt?_remove_removeBelow hne⟩

/-- A way that has been made leads to a folder. -/
theorem Rooted.follow?_makeFrom (hd : d.Rooted) (hhere : d.isFolderAt here = true)
    (h : (Disk.makeFrom here d pieces).2 = true) :
    (Disk.makeFrom here d pieces).1.follow? here pieces = some (Path.walk here pieces) ∧
      (Disk.makeFrom here d pieces).1.isFolderAt (Path.walk here pieces) = true := by
  fun_induction Disk.makeFrom here d pieces with
  | case1 => exact ⟨rfl, hhere⟩
  | case2 here d piece rest hdot ih =>
    rw [follow?_cons (isFolderAt_makeFrom here d rest hhere), Path.walk_skip hdot,
      Path.walk_skip hdot]
    exact ih hd hhere h
  | case3 here d piece rest hdot hup ih =>
    rw [follow?_cons (isFolderAt_makeFrom _ d rest hhere), Path.walk_up hdot hup,
      Path.walk_up hdot hup]
    exact ih hd (hd.isFolderAt_above hhere (List.dropLast_prefix here)) h
  | case4 here d piece rest hdot hup there hthere ih =>
    rw [follow?_cons (isFolderAt_makeFrom _ d rest hhere), Path.walk_down hdot hup,
      Path.walk_down hdot hup]
    exact ih hd (beq_iff_eq.mpr hthere) h
  | case5 | case7 => cases h
  | case6 here d piece rest hdot hup there hnone htakes ih =>
    have hne : there ≠ [] := List.append_ne_nil_of_right_ne_nil here (List.cons_ne_nil piece [])
    rw [follow?_cons (isFolderAt_makeFrom _ _ rest (isFolderAt_put_folder hne hhere)),
      Path.walk_down hdot hup, Path.walk_down hdot hup]
    exact ih (hd.put hhere _ fun l hl => isFolderAt_put_folder hne hl) (isFolderAt_put_self hne) h

theorem Rooted.isFolder_makeFolders (hd : d.Rooted) (hstart : d.isFolderAt (d.start p) = true)
    (h : (d.makeFolders p).2 = true) : (d.makeFolders p).1.isFolder p = true := by
  have husable : p.isUsable = true := by
    by_contra hunusable
    rw [Disk.makeFolders, if_neg hunusable] at h
    cases h
  have hhome := (settings_makeFolders p d).1
  rw [isFolder_iff_locate?, locate?, if_pos husable, start, hhome, ← start, Path.place]
  rw [Disk.makeFolders, if_pos husable] at h ⊢
  exact hd.follow?_makeFrom hstart h

/-- Where a way leads to a folder, there is nothing to be made. -/
theorem makeFrom_of_follow? (h : d.follow? here pieces = some l) (hl : d.isFolderAt l = true) :
    makeFrom here d pieces = (d, true) := by
  induction pieces generalizing here with
  | nil => rfl
  | cons piece rest ih =>
    rw [follow?_cons (isFolderAt_of_follow? h hl)] at h
    by_cases hdot : (piece.isEmpty || piece == ".") = true
    · rw [Path.walk_skip hdot] at h
      rw [makeFrom_skip hdot]
      exact ih h
    · by_cases hup : (piece == "..") = true
      · rw [Path.walk_up hdot hup] at h
        rw [makeFrom_up hdot hup]
        exact ih h
      · rw [Path.walk_down hdot hup] at h
        rw [makeFrom_of_folder hdot hup (beq_iff_eq.mp (isFolderAt_of_follow? h hl))]
        exact ih h

theorem makeFolders_of_isFolder (h : d.isFolder p = true) : d.makeFolders p = (d, true) := by
  obtain ⟨hlocate, hfolder⟩ := isFolder_iff_locate?.mp h
  have husable := isUsable_of_locate? hlocate
  rw [locate?, if_pos husable] at hlocate
  rw [makeFolders, if_pos husable]
  exact makeFrom_of_follow? hlocate hfolder

/-- A folder that is made has been taken by the folder that it is in. -/
theorem takesNew_of_makeFrom (hnone : d.entryAt? (m ++ [name]) = none)
    (h : (makeFrom here d pieces).1.entryAt? (m ++ [name]) ≠ none) :
    d.takesNew m name = true := by
  fun_induction makeFrom here d pieces with
  | case1 | case5 | case7 => exact absurd hnone h
  | case2 here d piece rest hdot ih => exact ih hnone h
  | case3 here d piece rest hdot hup ih => exact ih hnone h
  | case4 here d piece rest hdot hup there hthere ih => exact ih hnone h
  | case6 here d piece rest hdot hup there _ htakes ih =>
    by_cases hmade : m ++ [name] = here ++ [piece]
    · obtain ⟨rfl, hname⟩ := List.append_inj' hmade rfl
      rwa [List.singleton_inj.mp hname]
    · refine ih ?_ h
      rwa [entryAt?_put (by simp [there]), if_neg hmade]

theorem takesNew_of_makeFolders (hnone : d.entryAt? (m ++ [name]) = none)
    (h : (d.makeFolders p).1.entryAt? (m ++ [name]) ≠ none) : d.takesNew m name = true := by
  unfold makeFolders at h
  split at h
  · exact takesNew_of_makeFrom hnone h
  · exact absurd hnone h

theorem makeFrom_append {front : List Text} {made : Disk} {flag : Bool}
    (h : makeFrom here d front = (made, flag)) (rest : List Text) :
    makeFrom here d (front ++ rest) =
      if flag then makeFrom (Path.walk here front) made rest else (made, false) := by
  fun_induction makeFrom here d front with
  | case1 =>
    cases h
    rfl
  | case2 here d piece front hdot ih =>
    rw [List.cons_append, makeFrom_skip hdot, Path.walk_skip hdot]
    exact ih h
  | case3 here d piece front hdot hup ih =>
    rw [List.cons_append, makeFrom_up hdot hup, Path.walk_up hdot hup]
    exact ih h
  | case4 here d piece front hdot hup there hthere ih =>
    rw [List.cons_append, makeFrom_of_folder hdot hup hthere, Path.walk_down hdot hup]
    exact ih h
  | case5 here d piece front hdot hup there c hthere =>
    rw [List.cons_append, makeFrom_of_file hdot hup hthere]
    cases h
    rfl
  | case6 here d piece front hdot hup there hnone htakes ih =>
    rw [List.cons_append, makeFrom_of_none hdot hup hnone, if_pos htakes, Path.walk_down hdot hup]
    exact ih h
  | case7 here d piece front hdot hup there hnone htakes =>
    rw [List.cons_append, makeFrom_of_none hdot hup hnone, if_neg htakes]
    cases h
    rfl

/-- A way that has been made, or made as far as it could be, is not made any further. -/
theorem makeFrom_again (here : Location) (d : Disk) (pieces : List Text) :
    makeFrom here (makeFrom here d pieces).1 pieces = makeFrom here d pieces := by
  fun_induction makeFrom here d pieces with
  | case1 => rfl
  | case2 here d piece rest hdot ih =>
    rw [makeFrom_skip hdot]
    exact ih
  | case3 here d piece rest hdot hup ih =>
    rw [makeFrom_up hdot hup]
    exact ih
  | case4 here d piece rest hdot hup there hthere ih =>
    have hstill := isFolderAt_makeFrom there d rest (beq_iff_eq.mpr hthere)
    rw [makeFrom_of_folder hdot hup (beq_iff_eq.mp hstill)]
    exact ih
  | case5 here d piece rest hdot hup there c hthere => exact makeFrom_of_file hdot hup hthere
  | case6 here d piece rest hdot hup there hnone htakes ih =>
    have hmade : (d.put there .folder).isFolderAt there = true :=
      isFolderAt_put_self (by simp [there])
    have hstill := isFolderAt_makeFrom there (d.put there .folder) rest hmade
    rw [makeFrom_of_folder hdot hup (beq_iff_eq.mp hstill)]
    exact ih
  | case7 here d piece rest hdot hup there hnone htakes =>
    rw [makeFrom_of_none hdot hup hnone, if_neg htakes]

/-- Making the folders to a place first makes no difference to what is made from there. -/
theorem makeFolders_above {q : Path} {rest : List Text}
    (hpusable : p.isUsable = true) (hqusable : q.isUsable = true)
    (habsolute : q.isAbsolute = p.isAbsolute) (hq : q.pieces = p.stump ++ rest) (d : Disk) :
    (d.makeFolders p).1.makeFolders q = d.makeFolders q ∧
      ((d.makeFolders p).2 = false → d.makeFolders q = d.makeFolders p) := by
  have hstart (d : Disk) : d.start q = d.start p := by
    rw [start, habsolute, start]
  have hslash (d : Disk) : makeFrom (d.start p) d p.pieces = makeFrom (d.start p) d p.stump := by
    unfold Path.stump
    split
    · rename_i hlast
      obtain ⟨front, hfront⟩ := List.getLast?_eq_some_iff.mp hlast
      rw [hfront, List.dropLast_concat]
      rcases hmade : makeFrom (d.start p) d front with ⟨made, _ | _⟩ <;>
        rw [makeFrom_append hmade] <;> rfl
    · rfl
  have habove (d : Disk) : d.makeFolders p = makeFrom (d.start p) d p.stump := by
    rw [makeFolders, if_pos hpusable, hslash]
  have hbelow (d : Disk) : d.makeFolders q = makeFrom (d.start p) d (p.stump ++ rest) := by
    rw [makeFolders, if_pos hqusable, hstart, hq]
  rcases hmade : makeFrom (d.start p) d p.stump with ⟨made, flag⟩
  have hagain := makeFrom_again (d.start p) d p.stump
  have hhome : made.start p = d.start p := by
    have hsettings := (settings_makeFrom (d.start p) d p.stump).1
    rw [hmade] at hsettings
    rw [start, hsettings, start]
  rw [hmade] at hagain
  rw [habove, hmade, hbelow made, hbelow d, hhome, makeFrom_append hagain, makeFrom_append hmade]
  refine ⟨rfl, fun hfalse => ?_⟩
  obtain rfl : flag = false := hfalse
  rfl

end Disk
end SchemaPackage
