import Mathlib.Data.List.Nodup
import Mathlib.Data.List.Perm.Basic
import SchemaPackage.Proofs.DeclarationOrder

/-!
The order in which attributes are set. Each attribute sets one field, and does so from its value
alone. So the order makes no difference to whether all attributes are accepted, and what they make
of an object depends only on the value that comes last for each field.
-/
namespace SchemaPackage

open Outcome

section Values

variable {φ : Type} [DecidableEq φ] {field? : Text → Option φ}

/-- The value that comes last for a field. -/
def lastValue? (field? : Text → Option φ) (field : φ) : Attributes → Option Text
  | [] => none
  | (key, value) :: rest =>
    (lastValue? field? field rest).or (if field? key = some field then some value else none)

theorem lastValue?_eq_none_iff {field : φ} {attributes : Attributes} :
    lastValue? field? field attributes = none ↔ ∀ p ∈ attributes, field? p.1 ≠ some field := by
  induction attributes with
  | nil => simp [lastValue?]
  | cons pair rest ih => simp [lastValue?, Option.or_eq_none_iff, ih, and_comm]

theorem lastValue?_append (field : φ) (earlier later : Attributes) :
    lastValue? field? field (earlier ++ later) =
      (lastValue? field? field later).or (lastValue? field? field earlier) := by
  induction earlier with
  | nil => rw [List.nil_append, lastValue?, Option.or_none]
  | cons pair rest ih => rw [List.cons_append, lastValue?, lastValue?, ih, Option.or_assoc]

/-- The attributes for other fields than the given one. -/
def forOthers (field? : Text → Option φ) (field : φ) (attributes : Attributes) : Attributes :=
  attributes.filter fun p => field? p.1 ≠ some field

theorem lastValue?_forOthers (field other : φ) (attributes : Attributes) :
    lastValue? field? other (forOthers field? field attributes) =
      if other = field then none else lastValue? field? other attributes := by
  induction attributes with
  | nil => simp [forOthers, lastValue?]
  | cons pair rest ih =>
    by_cases hpair : field? pair.1 = some field
    · have hdrop : forOthers field? field (pair :: rest) = forOthers field? field rest :=
        List.filter_cons_of_neg (by simpa using hpair)
      rw [hdrop, ih, lastValue?, hpair]
      by_cases hother : other = field
      · rw [if_pos hother, if_pos hother]
      · have hne : ¬ (some field = some other) := fun h => hother (Option.some.inj h).symm
        rw [if_neg hother, if_neg hother, if_neg hne, Option.or_none]
    · have hkeep : forOthers field? field (pair :: rest) = pair :: forOthers field? field rest :=
        List.filter_cons_of_pos (by simpa using hpair)
      rw [hkeep, lastValue?, lastValue?, ih]
      by_cases hother : other = field
      · rw [if_pos hother, if_pos hother, hother, if_neg hpair]
        rfl
      · rw [if_neg hother, if_neg hother]

/-- The attributes for a field. -/
def forField (field? : Text → Option φ) (field : φ) (attributes : Attributes) : Attributes :=
  attributes.filter fun p => field? p.1 = some field

theorem lastValue?_eq_getLast? (field : φ) (attributes : Attributes) :
    lastValue? field? field attributes =
      (forField field? field attributes).getLast?.map Prod.snd := by
  induction attributes with
  | nil => rfl
  | cons pair rest ih =>
    rw [lastValue?, ih]
    by_cases hpair : field? pair.1 = some field
    · have hkeep : forField field? field (pair :: rest) = pair :: forField field? field rest :=
        List.filter_cons_of_pos (by simpa using hpair)
      rw [hkeep, if_pos hpair, List.getLast?_cons]
      cases (forField field? field rest).getLast? <;> rfl
    · have hdrop : forField field? field (pair :: rest) = forField field? field rest :=
        List.filter_cons_of_neg (by simpa using hpair)
      rw [hdrop, if_neg hpair, Option.or_none]

/-- If there is no other, the last value for a field is the same in any order. -/
theorem lastValue?_congr {field : φ} {attributes attributes' : Attributes}
    (hperm : attributes.Perm attributes')
    (hone : (forField field? field attributes).length ≤ 1) :
    lastValue? field? field attributes = lastValue? field? field attributes' := by
  have hsame : (forField field? field attributes).Perm (forField field? field attributes') :=
    hperm.filter _
  rw [lastValue?_eq_getLast?, lastValue?_eq_getLast?]
  cases hgiven : forField field? field attributes with
  | nil =>
    rw [hgiven] at hsame
    rw [hsame.nil_eq]
  | cons pair more =>
    rw [hgiven, List.length_cons] at hone
    obtain rfl : more = [] := List.eq_nil_of_length_eq_zero (by omega)
    rw [hgiven] at hsame
    rw [List.perm_singleton.mp hsame.symm]

/-- If each field is named by one key only and no key is given twice, no field is given two
values. -/
theorem length_forField_le_one {field : φ} {attributes : Attributes}
    (hfield : ∀ key key', field? key = some field → field? key' = some field → key = key')
    (hnodup : (attributes.map Prod.fst).Nodup) :
    (forField field? field attributes).length ≤ 1 := by
  have hkeys : ((forField field? field attributes).map Prod.fst).Nodup :=
    hnodup.sublist (List.filter_sublist.map _)
  have hnames : ∀ p ∈ forField field? field attributes, field? p.1 = some field :=
    fun p hp => of_decide_eq_true (List.mem_filter.mp hp).2
  generalize forField field? field attributes = given at hkeys hnames ⊢
  match given with
  | [] => exact Nat.zero_le 1
  | [_] => exact Nat.le_refl 1
  | p :: q :: _ =>
    have hp := hnames p List.mem_cons_self
    have hq := hnames q (List.mem_cons_of_mem _ List.mem_cons_self)
    rw [List.map_cons, List.map_cons, hfield _ _ hp hq] at hkeys
    exact absurd List.mem_cons_self (List.nodup_cons.mp hkeys).1

theorem lookup_eq_some_iff_mem {key value : Text} {attributes : Attributes}
    (hnodup : (attributes.map Prod.fst).Nodup) :
    attributes.lookup key = some value ↔ (key, value) ∈ attributes := by
  induction attributes with
  | nil => simp
  | cons pair rest ih =>
    obtain ⟨first, given⟩ := pair
    obtain ⟨hnew, hrest⟩ := List.nodup_cons.mp hnodup
    by_cases hkey : key = first
    · subst hkey
      have hnot : (key, value) ∉ rest := fun hmem => hnew (List.mem_map.mpr ⟨_, hmem, rfl⟩)
      simp [hnot, eq_comm]
    · have hne : (key == first) = false := beq_false_of_ne hkey
      rw [List.lookup_cons, hne, List.mem_cons, Prod.mk.injEq]
      exact (ih hrest).trans (by simp [hkey])

theorem firstValue?_congr {attributes attributes' : Attributes}
    (hperm : attributes.Perm attributes') (hnodup : (attributes.map Prod.fst).Nodup) (key : Text) :
    firstValue? key attributes = firstValue? key attributes' := by
  have hnodup' : (attributes'.map Prod.fst).Nodup := (hperm.map Prod.fst).nodup_iff.mp hnodup
  refine Option.ext fun value => ?_
  rw [firstValue?, firstValue?, lookup_eq_some_iff_mem hnodup, lookup_eq_some_iff_mem hnodup',
    hperm.mem_iff]

omit [DecidableEq φ] in
/-- A field that is listed once has one key. -/
theorem eq_of_lookup_eq_some {keys : List (Text × φ)} (hnodup : (keys.map Prod.snd).Nodup)
    {key key' : Text} {field : φ} (h : keys.lookup key = some field)
    (h' : keys.lookup key' = some field) : key = key' := by
  have hmem : ∀ {key}, keys.lookup key = some field → (key, field) ∈ keys := by
    intro key h
    obtain ⟨before, after, hsplit, _⟩ := List.lookup_eq_some_iff.mp h
    rw [hsplit]
    exact List.mem_append_right _ List.mem_cons_self
  exact (Prod.mk.inj (List.inj_on_of_nodup_map hnodup (hmem h) (hmem h') rfl)).1

end Values

theorem setByKey_eq {α φ : Type} (keys : List (Text × φ)) (set : φ → Text → α → Except Fault α)
    (key value : Text) (a : α) : setByKey keys set key value a =
      (keys.lookup key).elim (.ok a) fun field => set field value a := by
  unfold setByKey
  cases keys.lookup key <;> rfl

/-- Each field is set from the value alone, apart from all others: what is read into an empty object
is taken from there. -/
structure Fieldwise {α φ : Type} (set : φ → Text → α → Except Fault α) where
  blank : α
  take : φ → α → α → α
  set_eq : ∀ field value a, set field value a = (set field value blank).map fun s => take field s a
  take_comm : ∀ {f g}, f ≠ g → ∀ s s' a, take f s (take g s' a) = take g s' (take f s a)
  take_take : ∀ f s s' a, take f s (take f s' a) = take f s a

namespace Fieldwise

variable {α φ : Type} {set : φ → Text → α → Except Fault α}
  {assign : Text → Text → α → Except Fault α} {field? : Text → Option φ}

/-- Attributes that name no field are accepted, whatever their values. -/
def accepts (F : Fieldwise set) (field? : Text → Option φ) (p : Text × Text) : Bool :=
  match field? p.1 with
  | some field => (set field p.2 F.blank).toOption.isSome
  | none => true

def read (F : Fieldwise set) (field : φ) (value : Text) : α :=
  (set field value F.blank).toOption.getD F.blank

def put (F : Fieldwise set) (field? : Text → Option φ) (p : Text × Text) (a : α) : α :=
  match field? p.1 with
  | some field => F.take field (F.read field p.2) a
  | none => a

def putAll (F : Fieldwise set) (field? : Text → Option φ) (attributes : Attributes) (a : α) : α :=
  attributes.foldl (fun a p => F.put field? p a) a

theorem putAll_cons (F : Fieldwise set) (p : Text × Text) (rest : Attributes) (a : α) :
    F.putAll field? (p :: rest) a = F.putAll field? rest (F.put field? p a) := rfl

variable (F : Fieldwise set)

theorem toOption_assignAll
    (hassign : ∀ key value a,
      assign key value a = (field? key).elim (.ok a) fun field => set field value a)
    (attributes : Attributes) (a : α) :
    (whole (assignAll assign attributes a)).toOption =
      bif attributes.all (F.accepts field?) then some (F.putAll field? attributes a) else none := by
  induction attributes generalizing a with
  | nil => rfl
  | cons pair rest ih =>
    rw [assignAll, hassign, List.all_cons, putAll_cons, accepts, put]
    cases field? pair.1 with
    | none => exact ih a
    | some field =>
      dsimp only [Option.elim]
      rw [F.set_eq, read]
      cases set field pair.2 F.blank with
      | error fault => rfl
      | ok s => exact ih (F.take field s a)

theorem put_take {p : Text × Text} {field : φ} (hp : field? p.1 ≠ some field) (s a : α) :
    F.put field? p (F.take field s a) = F.take field s (F.put field? p a) := by
  unfold put
  split
  next other hother =>
    have hne : other ≠ field := by
      rintro rfl
      exact hp hother
    exact F.take_comm hne _ _ _
  next => rfl

theorem putAll_take {attributes : Attributes} {field : φ}
    (h : ∀ p ∈ attributes, field? p.1 ≠ some field) (s a : α) :
    F.putAll field? attributes (F.take field s a) =
      F.take field s (F.putAll field? attributes a) := by
  induction attributes generalizing a with
  | nil => rfl
  | cons pair rest ih =>
    rw [putAll_cons, putAll_cons, F.put_take (h pair List.mem_cons_self),
      ih fun p hp => h p (List.mem_cons_of_mem _ hp)]

variable [DecidableEq φ]

theorem forOthers_ne {field : φ} {attributes : Attributes} :
    ∀ p ∈ forOthers field? field attributes, field? p.1 ≠ some field :=
  fun _ hp => of_decide_eq_true (List.mem_filter.mp hp).2

/-- A field that is given values takes the last of them, as if it had been set behind all the
others. -/
theorem putAll_eq_take {attributes : Attributes} {field : φ} {value : Text}
    (h : lastValue? field? field attributes = some value) (a : α) :
    F.putAll field? attributes a =
      F.take field (F.read field value)
        (F.putAll field? (forOthers field? field attributes) a) := by
  induction attributes generalizing a with
  | nil => cases h
  | cons pair rest ih =>
    rw [lastValue?] at h
    by_cases hpair : field? pair.1 = some field
    · have hdrop : forOthers field? field (pair :: rest) = forOthers field? field rest :=
        List.filter_cons_of_neg (by simpa using hpair)
      have hput : F.put field? pair a = F.take field (F.read field pair.2) a := by
        rw [put, hpair]
      rw [hdrop, putAll_cons, hput]
      cases hrest : lastValue? field? field rest with
      | some last =>
        -- a later value replaces this one
        rw [hrest] at h
        cases h
        rw [ih hrest, F.putAll_take forOthers_ne, F.take_take]
      | none =>
        rw [hrest, if_pos hpair] at h
        cases h
        have hothers := lastValue?_eq_none_iff.mp hrest
        have hsame : forOthers field? field rest = rest :=
          List.filter_eq_self.mpr fun p hp => decide_eq_true (hothers p hp)
        rw [F.putAll_take hothers, hsame]
    · have hkeep : forOthers field? field (pair :: rest) = pair :: forOthers field? field rest :=
        List.filter_cons_of_pos (by simpa using hpair)
      rw [if_neg hpair, Option.or_none] at h
      rw [hkeep, putAll_cons, putAll_cons, ih h]

theorem putAll_of_unnamed {attributes : Attributes}
    (h : ∀ field, lastValue? field? field attributes = none) (a : α) :
    F.putAll field? attributes a = a := by
  have hnone : ∀ p ∈ attributes, field? p.1 = none := by
    intro p hp
    cases hfield : field? p.1 with
    | none => rfl
    | some field => exact absurd hfield (lastValue?_eq_none_iff.mp (h field) p hp)
  clear h
  induction attributes with
  | nil => rfl
  | cons pair rest ih =>
    rw [putAll_cons, put, hnone pair List.mem_cons_self]
    exact ih fun p hp => hnone p (List.mem_cons_of_mem _ hp)

theorem length_forOthers_lt {attributes : Attributes} {field : φ} {value : Text}
    (h : lastValue? field? field attributes = some value) :
    (forOthers field? field attributes).length < attributes.length := by
  refine List.length_filter_lt_length_iff_exists.mpr ?_
  by_contra hall
  have hnone : lastValue? field? field attributes = none :=
    lastValue?_eq_none_iff.mpr fun p hp hfield => hall ⟨p, hp, by simpa using hfield⟩
  rw [hnone] at h
  cases h

/-- Only the last values count. -/
theorem putAll_congr {attributes attributes' : Attributes}
    (h : ∀ field, lastValue? field? field attributes = lastValue? field? field attributes')
    (a : α) : F.putAll field? attributes a = F.putAll field? attributes' a := by
  -- one field after another is set last in both, until no attribute is left that names one
  induction hn : attributes.length using Nat.strongRecOn generalizing attributes attributes' with
  | ind n ih =>
    by_cases hnamed : ∃ field value, lastValue? field? field attributes = some value
    · obtain ⟨field, value, hvalue⟩ := hnamed
      have hvalue' : lastValue? field? field attributes' = some value := by
        rw [← h, hvalue]
      have hothers : F.putAll field? (forOthers field? field attributes) a =
          F.putAll field? (forOthers field? field attributes') a := by
        refine ih _ ?_ (fun other => ?_) rfl
        · rw [← hn]
          exact length_forOthers_lt hvalue
        · rw [lastValue?_forOthers, lastValue?_forOthers, h]
      rw [F.putAll_eq_take hvalue, F.putAll_eq_take hvalue', hothers]
    · have hnone : ∀ field, lastValue? field? field attributes = none := fun field =>
        Option.eq_none_iff_forall_ne_some.mpr fun value hvalue => hnamed ⟨field, value, hvalue⟩
      rw [F.putAll_of_unnamed hnone, F.putAll_of_unnamed fun field => by rw [← h, hnone]]

omit [DecidableEq φ] in
/-- What forgets some fields need not see them set. -/
theorem map_putAll {e : α → α} {lasting? : Text → Option φ}
    (he : ∀ p a, e (F.put field? p a) = F.put lasting? p (e a)) (attributes : Attributes) (a : α) :
    e (F.putAll field? attributes a) = F.putAll lasting? attributes (e a) := by
  induction attributes generalizing a with
  | nil => rfl
  | cons pair rest ih => rw [putAll_cons, putAll_cons, ih, he]

/-- Attributes in another order are accepted alike. They make the same of an object, as far as it
lasts, if the last value for each field that lasts is the same. -/
theorem map_assignAll_congr (F : Fieldwise set)
    (hassign : ∀ key value a,
      assign key value a = (field? key).elim (.ok a) fun field => set field value a)
    {e : α → α} {lasting? : Text → Option φ}
    (he : ∀ p a, e (F.put field? p a) = F.put lasting? p (e a))
    {attributes attributes' : Attributes} (hperm : attributes.Perm attributes')
    (h : ∀ field, lastValue? lasting? field attributes = lastValue? lasting? field attributes')
    (a : α) :
    (whole (assignAll assign attributes a)).toOption.map e =
      (whole (assignAll assign attributes' a)).toOption.map e := by
  rw [F.toOption_assignAll hassign, F.toOption_assignAll hassign, hperm.all_eq]
  cases attributes'.all (F.accepts field?) with
  | false => rfl
  | true =>
    exact congrArg some (by rw [F.map_putAll he, F.map_putAll he, F.putAll_congr h])

omit [DecidableEq φ] in
theorem isSome_assignAll_congr (F : Fieldwise set)
    (hassign : ∀ key value a,
      assign key value a = (field? key).elim (.ok a) fun field => set field value a)
    {attributes attributes' : Attributes} (hperm : attributes.Perm attributes') (a : α) :
    (whole (assignAll assign attributes a)).toOption.isSome =
      (whole (assignAll assign attributes' a)).toOption.isSome := by
  rw [F.toOption_assignAll hassign, F.toOption_assignAll hassign, hperm.all_eq]
  cases attributes'.all (F.accepts field?) <;> rfl

theorem assignAll_congr (F : Fieldwise set)
    (hassign : ∀ key value a,
      assign key value a = (field? key).elim (.ok a) fun field => set field value a)
    {attributes attributes' : Attributes} (hperm : attributes.Perm attributes')
    (h : ∀ field, lastValue? field? field attributes = lastValue? field? field attributes')
    (a : α) :
    (whole (assignAll assign attributes a)).toOption =
      (whole (assignAll assign attributes' a)).toOption := by
  have hsame := F.map_assignAll_congr hassign (e := id) (fun _ _ => rfl) hperm h a
  rw [Option.map_id] at hsame
  exact hsame

end Fieldwise

namespace Column

def field? (key : Text) : Option Field := fieldKeys.lookup key

/-- The column with one field of another. -/
def take (field : Field) (source c : Column) : Column :=
  match field with
  | .name => { c with name := source.name }
  | .dataType => { c with dataType := source.dataType }
  | .nullable => { c with nullable := source.nullable }
  | .defaultValue => { c with defaultValue := source.defaultValue }
  | .documentation => { c with documentation := source.documentation }
  | .story => { c with story := source.story }
  | .release => { c with release := source.release }
  | .products => { c with products := source.products }
  | .loaderExpression => { c with loaderExpression := source.loaderExpression }
  | .deprecatedRelease => { c with deprecatedRelease := source.deprecatedRelease }
  | .sequenceName => { c with sequenceName := source.sequenceName }

def fieldwise : Fieldwise Column.set where
  blank := blank 0
  take := take
  set_eq := by
    intro field value c
    cases field with
    | name =>
      rw [set, set, setName, setName]
      cases normalizeName "Column" value <;> rfl
    | dataType =>
      rw [set, set, setDataType, setDataType]
      cases requireValue "Column data type" value <;> rfl
    | _ => rfl
  take_comm := by
    intro f g hne s s' c
    cases f <;> cases g <;> first | rfl | exact absurd rfl hne
  take_take := by
    intro f s s' c
    cases f <;> rfl

theorem field?_injective {key key' : Text} {field : Field} (h : field? key = some field)
    (h' : field? key' = some field) : key = key' :=
  eq_of_lookup_eq_some (by decide) h h'

/-- Attributes behind those in another order are behind them as before. -/
theorem lastValue?_append_congr {attributes attributes' : Attributes}
    (hperm : attributes.Perm attributes') (hnodup : (attributes.map Prod.fst).Nodup)
    (more : Attributes) (field : Field) :
    lastValue? field? field (attributes ++ more) =
      lastValue? field? field (attributes' ++ more) := by
  rw [lastValue?_append, lastValue?_append,
    lastValue?_congr hperm (length_forField_le_one (fun _ _ => field?_injective) hnodup)]

theorem toOption_ofAttributes_congr {attributes attributes' : Attributes}
    (hperm : attributes.Perm attributes') (hnodup : (attributes.map Prod.fst).Nodup)
    (more : Attributes) (order : Nat) :
    (ofAttributes (attributes ++ more) order).toOption =
      (ofAttributes (attributes' ++ more) order).toOption := by
  have hfirst : ∀ key, firstValue? key (attributes ++ more) =
      firstValue? key (attributes' ++ more) := by
    intro key
    have hsame := firstValue?_congr hperm hnodup key
    rw [firstValue?, firstValue?] at hsame ⊢
    rw [List.lookup_append, List.lookup_append, hsame]
  have hassigned : ∀ named, (whole (assignAll assign (attributes ++ more) named)).toOption =
      (whole (assignAll assign (attributes' ++ more) named)).toOption :=
    fieldwise.assignAll_congr (setByKey_eq fieldKeys set) (hperm.append_right more)
      (lastValue?_append_congr hperm hnodup more)
  change (_ >>= _ : Except Fault Column).toOption = (_ >>= _ : Except Fault Column).toOption
  rw [except_toOption_bind, except_toOption_bind, hfirst, hfirst]
  simp only [hassigned]

end Column

namespace Table

def field? (key : Text) : Option Field := fieldKeys.lookup key

/-- The table with one field of another. -/
def take (field : Field) (source t : Table) : Table :=
  match field with
  | .name => { t with name := source.name }
  | .documentation => { t with documentation := source.documentation }
  | .story => { t with story := source.story }
  | .release => { t with release := source.release }
  | .products => { t with products := source.products }
  | .category => { t with category := source.category }
  | .origin => { t with origin := source.origin }
  | .logging => { t with logging := source.logging }
  | .transactions => { t with transactions := source.transactions }
  | .loadOnInstall => { t with loadOnInstall := source.loadOnInstall }
  | .loadOnUpgrade => { t with loadOnUpgrade := source.loadOnUpgrade }
  | .loadOnDemand => { t with loadOnDemand := source.loadOnDemand }

def fieldwise : Fieldwise Table.set where
  blank := { name := [] }
  take := take
  set_eq := by
    intro field value t
    cases field with
    | name =>
      rw [set, set, setName, setName]
      cases normalizeName "Table" value <;> rfl
    | transactions =>
      rw [set, set]
      cases parseCount "init_trans" value <;> rfl
    | _ => rfl
  take_comm := by
    intro f g hne s s' t
    cases f <;> cases g <;> first | rfl | exact absurd rfl hne
  take_take := by
    intro f s s' t
    cases f <;> rfl

theorem field?_injective {key key' : Text} {field : Field} (h : field? key = some field)
    (h' : field? key' = some field) : key = key' :=
  eq_of_lookup_eq_some (by decide) h h'

theorem sameButFault_createFrom {attributes attributes' : Attributes}
    (hperm : attributes.Perm attributes') (hnodup : (attributes.map Prod.fst).Nodup)
    (tracked : Bool) (ctx : Context) :
    SameButFault (fun _ => True) (createFrom attributes tracked ctx)
      (createFrom attributes' tracked ctx) := by
  have hlast : ∀ field, lastValue? field? field attributes = lastValue? field? field attributes' :=
    fun _ => lastValue?_congr hperm
      (length_forField_le_one (fun _ _ => field?_injective) hnodup)
  rw [createFrom, createFrom, ← firstValue?_congr hperm hnodup]
  cases firstValue? "name" attributes with
  | none => exact .refl _
  | some name =>
    refine SameButFault.bind (.refl _) fun created next _ => sameButFault_lift ?_ next
    exact .of_toOption_eq (fieldwise.assignAll_congr (setByKey_eq fieldKeys set) hperm hlast created)

end Table

namespace Index

def field? (key : Text) : Option Field := fieldKeys.lookup (Text.lower key)

/-- The index with one field of another. -/
def take (field : Field) (source i : Index) : Index :=
  match field with
  | .name => { i with name := source.name }
  | .kind => { i with kind := source.kind }
  | .tableName => { i with tableName := source.tableName }
  | .columns => { i with declaredColumns := source.declaredColumns }
  | .story => { i with story := source.story }
  | .release => { i with release := source.release }

def fieldwise : Fieldwise Index.set where
  blank := {}
  take := take
  set_eq := by
    intro field value i
    cases field with
    | name =>
      rw [set, set, setName, setName]
      cases normalizeName "Index" value <;> rfl
    | kind =>
      rw [set, set]
      cases IndexKind.parse value <;> rfl
    | tableName =>
      rw [set, set, setTableName, setTableName]
      cases requireValue "Index table name" value <;> rfl
    | columns =>
      rw [set, set, setColumns, setColumns]
      cases requireValue "Index columns" value <;> rfl
    | _ => rfl
  take_comm := by
    intro f g hne s s' i
    cases f <;> cases g <;> first | rfl | exact absurd rfl hne
  take_take := by
    intro f s s' i
    cases f <;> rfl

/-- The index with nothing but one field. -/
def only (field : Field) (i : Index) : Index := take field i {}

/-- The field of an attribute, if it is the given one. -/
def onlyField? (field : Field) (key : Text) : Option Field := (field? key).filter (· = field)

theorem lastValue?_onlyField? (field other : Field) (attributes : Attributes) :
    lastValue? (onlyField? field) other attributes =
      if other = field then lastValue? field? field attributes else none := by
  induction attributes with
  | nil => simp [lastValue?]
  | cons pair rest ih =>
    have hnamed : onlyField? field pair.1 = some other ↔
        field? pair.1 = some other ∧ other = field := by
      simp [onlyField?, Option.filter_eq_some_iff]
    rw [lastValue?, lastValue?, ih]
    by_cases hother : other = field
    · subst hother
      simp [hnamed]
    · simp [hnamed, hother]

theorem only_put (field : Field) (p : Text × Text) (i : Index) :
    only field (fieldwise.put field? p i) =
      fieldwise.put (onlyField? field) p (only field i) := by
  unfold Fieldwise.put onlyField?
  cases field? p.1 with
  | none => rfl
  | some other => cases other <;> cases field <;> rfl

theorem map_only_ofAttributes_congr {attributes attributes' : Attributes}
    (hperm : attributes.Perm attributes') {field : Field}
    (hlast : lastValue? field? field attributes = lastValue? field? field attributes') :
    (ofAttributes attributes).toOption.map (only field) =
      (ofAttributes attributes').toOption.map (only field) := by
  refine fieldwise.map_assignAll_congr (fun key => setByKey_eq fieldKeys set (Text.lower key))
    (only_put field) hperm (fun other => ?_) {}
  rw [lastValue?_onlyField?, lastValue?_onlyField?, hlast]

theorem isSome_ofAttributes_congr {attributes attributes' : Attributes}
    (hperm : attributes.Perm attributes') :
    (ofAttributes attributes).toOption.isSome = (ofAttributes attributes').toOption.isSome :=
  fieldwise.isSome_assignAll_congr (fun key => setByKey_eq fieldKeys set (Text.lower key)) hperm {}

/-- The indexes have the same field. -/
def Agree : Field → Index → Index → Prop
  | .name, i, j => i.name = j.name
  | .kind, i, j => i.kind = j.kind
  | .tableName, i, j => i.tableName = j.tableName
  | .columns, i, j => i.declaredColumns = j.declaredColumns
  | .story, i, j => i.story = j.story
  | .release, i, j => i.release = j.release

theorem agree_of_only_eq {field : Field} {i j : Index} (h : only field i = only field j) :
    Agree field i j := by
  unfold only take at h
  cases field <;> simpa [Agree] using h

/-- The field is given one value at most, or the same value last. -/
def Settles (field : Field) (attributes attributes' : Attributes) : Prop :=
  (forField field? field attributes).length ≤ 1 ∨
    lastValue? field? field attributes = lastValue? field? field attributes'

theorem agree_of_settles {attributes attributes' : Attributes}
    (hperm : attributes.Perm attributes') {field : Field}
    (hsettles : Settles field attributes attributes') {i j : Index}
    (hi : ofAttributes attributes = .ok i) (hj : ofAttributes attributes' = .ok j) :
    Agree field i j := by
  have hlast : lastValue? field? field attributes = lastValue? field? field attributes' := by
    rcases hsettles with hone | hsame
    · exact lastValue?_congr hperm hone
    · exact hsame
  have honly := map_only_ofAttributes_congr hperm hlast
  rw [hi, hj] at honly
  exact agree_of_only_eq (Option.some.inj honly)

end Index

end SchemaPackage
