import Mathlib.Data.List.Forall2
import Mathlib.Data.List.Nodup
import SchemaPackage.Markup.Document

/-!
Documents whose tags have their attributes in another order. Where no name has a qualifier, each
attribute is read on its own, and whether they go together does not depend on their order. So such
documents are read alike, into elements that differ only in the order of their attributes.
-/
namespace SchemaPackage.Markup

deriving instance DecidableEq for RawAttribute, Token

/-- The same token, but for the order of the attributes in a tag, where no name has a qualifier. -/
inductive Token.Reordered : Token → Token → Prop
  | opening {name : QName} {attributes attributes' : List RawAttribute} {selfClosed : Bool}
    (hname : name.qualifier = []) (hplain : ∀ a ∈ attributes, a.name.qualifier = [])
    (hperm : attributes.Perm attributes') :
    Reordered (.opening name attributes selfClosed) (.opening name attributes' selfClosed)
  | closing (name : QName) : Reordered (.closing name) (.closing name)
  | text (content : Text) : Reordered (.text content) (.text content)
  | literal (content : Text) : Reordered (.literal content) (.literal content)
  | aside : Reordered .aside .aside

/-- The tokens that a document is written with. -/
def tokens? (t : Text) : Option (List Token) := (body? t).bind Token.scan

/-- The texts are written with the same tokens, but for the order of the attributes in each tag. -/
def Reordered (t t' : Text) : Prop :=
  ∃ tokens tokens', tokens? t = some tokens ∧ tokens? t' = some tokens' ∧
    List.Forall₂ Token.Reordered tokens tokens'

/-- Attributes outside all namespaces, none of them twice, in two orders. -/
structure SameAttributes (attributes attributes' : List Attribute) : Prop where
  perm : attributes.Perm attributes'
  plain : ∀ a ∈ attributes, a.space = none
  distinct : (attributes.map Attribute.name).Nodup

/-- The same node, but for the order of the attributes of each element in it. -/
inductive Node.Reordered : Node → Node → Prop
  | element {tag : Text} {attributes attributes' : List Attribute} {children children' : List Node}
    (hattributes : SameAttributes attributes attributes')
    (hchildren : List.Forall₂ Node.Reordered children children') :
    Reordered (.element tag attributes children) (.element tag attributes' children')
  | text (content : Text) : Reordered (.text content) (.text content)
  | aside : Reordered .aside .aside

structure Element.Reordered (e e' : Element) : Prop where
  tag : e.tag = e'.tag
  attributes : SameAttributes e.attributes e'.attributes
  children : List.Forall₂ Node.Reordered e.children e'.children

structure Frame.Reordered (f f' : Frame) : Prop where
  name : f.name = f'.name
  attributes : SameAttributes f.attributes f'.attributes
  latest : List.Forall₂ Node.Reordered f.latest f'.latest

structure Progress.Reordered (p p' : Progress) : Prop where
  frames : List.Forall₂ Frame.Reordered p.frames p'.frames
  root : Option.Rel Node.Reordered p.root p'.root

section Options

variable {α β γ δ : Type} {r : α → β → Prop} {s : γ → δ → Prop}

theorem rel_cases {x : Option α} {y : Option β} (h : Option.Rel r x y) :
    (x = none ∧ y = none) ∨ ∃ a b, x = some a ∧ y = some b ∧ r a b := by
  cases h with
  | none => exact Or.inl ⟨rfl, rfl⟩
  | some hr => exact Or.inr ⟨_, _, rfl, rfl, hr⟩

theorem rel_bind {x : Option α} {y : Option β} {f : α → Option γ} {g : β → Option δ}
    (h : Option.Rel r x y) (hnext : ∀ a b, r a b → Option.Rel s (f a) (g b)) :
    Option.Rel s (x.bind f) (y.bind g) := by
  cases h with
  | none => exact .none
  | some hr => exact hnext _ _ hr

theorem rel_map {x : Option α} {y : Option β} {f : α → γ} {g : β → δ} (h : Option.Rel r x y)
    (hnext : ∀ a b, r a b → s (f a) (g b)) : Option.Rel s (x.map f) (y.map g) := by
  cases h with
  | none => exact .none
  | some hr => exact .some (hnext _ _ hr)

theorem rel_isSome {x : Option α} {y : Option β} (h : Option.Rel r x y) : x.isSome = y.isSome := by
  cases h <;> rfl

theorem rel_trans {r : α → α → Prop} {x y z : Option α}
    (htrans : ∀ a b c, r a b → r b c → r a c) (h : Option.Rel r x y) (h' : Option.Rel r y z) :
    Option.Rel r x z := by
  cases h with
  | none => exact h'
  | some hr =>
    cases h' with
    | some hr' => exact .some (htrans _ _ _ hr hr')

end Options

section Attributes

theorem readAttributes_perm {l l' : List RawAttribute} (h : l.Perm l') :
    Option.Rel List.Perm (readAttributes l) (readAttributes l') := by
  induction h with
  | nil => exact .some .nil
  | cons a _ ih =>
    rw [readAttributes, readAttributes]
    cases attributeText? a.value with
    | none => exact .none
    | some value => exact rel_map ih fun _ _ hperm => hperm.cons _
  | swap a b l =>
    rw [readAttributes, readAttributes, readAttributes, readAttributes]
    cases attributeText? a.value <;> cases attributeText? b.value <;> cases readAttributes l
    all_goals first | exact .none | exact .some (.swap _ _ _)
  | trans _ _ ih ih' => exact rel_trans (fun _ _ _ => .trans) ih ih'

theorem map_fst_readAttributes {l : List RawAttribute} {read : List ReadAttribute}
    (h : readAttributes l = some read) : read.map Prod.fst = l.map RawAttribute.name := by
  induction l generalizing read with
  | nil =>
    cases h
    rfl
  | cons a rest ih =>
    rw [readAttributes] at h
    split at h
    · obtain ⟨more, hmore, rfl⟩ := Option.map_eq_some_iff.mp h
      rw [List.map_cons, List.map_cons, ih hmore]
    · cases h

/-- An attribute that declares a namespace for elements without qualifiers may not name the two
that are taken. -/
def isAllowed (p : ReadAttribute) : Bool :=
  p.1.base != ("xmlns" : Text) || (p.2 != xmlSpace && p.2 != declarationSpace)

variable {read : List ReadAttribute} (hplain : ∀ p ∈ read, p.1.qualifier = [])

include hplain

theorem isSome_declarations? (own : Scope) :
    (declarations? own read).isSome = read.all isAllowed := by
  induction read generalizing own with
  | nil => rfl
  | cons p rest ih =>
    have hrest : ∀ q ∈ rest, q.1.qualifier = [] := fun q hq => hplain q (List.mem_cons_of_mem _ hq)
    obtain ⟨name, value⟩ := p
    have hname : name.qualifier = [] := hplain _ List.mem_cons_self
    have hqualifier : (name.qualifier == ("xmlns" : Text)) = false := by
      rw [hname]
      rfl
    rw [declarations?, hqualifier, if_neg Bool.false_ne_true, List.all_cons, isAllowed, bne]
    cases name.base == ("xmlns" : Text) with
    | false => exact ih hrest own
    | true =>
      rw [if_pos rfl, Scope.declareDefault?]
      by_cases htaken : value = xmlSpace ∨ value = declarationSpace
      · rcases htaken with rfl | rfl
        · simp
        · simp
      · obtain ⟨hxml, hdeclaration⟩ := not_or.mp htaken
        simp [hxml, hdeclaration, ih hrest]

/-- The attributes that declare no namespace. -/
def kept (read : List ReadAttribute) : List Attribute :=
  (read.filter fun p => !declares p.1).map fun p => ⟨none, p.1.base, p.2⟩

omit hplain in
theorem kept_cons (p : ReadAttribute) (rest : List ReadAttribute) :
    kept (p :: rest) =
      if declares p.1 then kept rest else ⟨none, p.1.base, p.2⟩ :: kept rest := by
  unfold kept
  cases h : declares p.1 with
  | true => rw [List.filter_cons_of_neg (by simp [h]), if_pos rfl]
  | false => rw [List.filter_cons_of_pos (by simp [h]), if_neg Bool.false_ne_true, List.map_cons]

omit hplain in
theorem any_iff_mem_names {earlier : List Attribute} (hearlier : ∀ a ∈ earlier, a.space = none)
    (name : Text) :
    (earlier.any fun a => a.space == none && a.name == name) = true ↔
      name ∈ earlier.map Attribute.name := by
  rw [List.any_eq_true, List.mem_map]
  constructor
  · rintro ⟨a, ha, hsame⟩
    rw [Bool.and_eq_true, beq_iff_eq, beq_iff_eq] at hsame
    exact ⟨a, ha, hsame.2⟩
  · rintro ⟨a, ha, hsame⟩
    refine ⟨a, ha, ?_⟩
    rw [hearlier a ha, hsame, Bool.and_eq_true, beq_self_eq_true, beq_self_eq_true]
    exact ⟨rfl, rfl⟩

/-- Attributes without qualifiers go together if no two of them share a name. -/
theorem resolve?_eq (scope : Scope) {earlier : List Attribute}
    (hearlier : ∀ a ∈ earlier, a.space = none) (hnodup : (earlier.map Attribute.name).Nodup) :
    resolve? scope earlier read =
      if ((earlier ++ kept read).map Attribute.name).Nodup then some (earlier ++ kept read)
      else none := by
  induction read generalizing earlier with
  | nil => rw [resolve?, kept, List.filter_nil, List.map_nil, List.append_nil, if_pos hnodup]
  | cons p rest ih =>
    have hrest : ∀ q ∈ rest, q.1.qualifier = [] := fun q hq => hplain q (List.mem_cons_of_mem _ hq)
    obtain ⟨name, value⟩ := p
    have hname : name.qualifier = [] := hplain _ List.mem_cons_self
    rw [resolve?, kept_cons]
    cases declares name with
    | true => exact ih hrest hearlier hnodup
    | false =>
      have hspace : scope.attributeSpace? name.qualifier = some none := by
        rw [hname]
        rfl
      have hgiven := any_iff_mem_names hearlier name.base
      rw [if_neg Bool.false_ne_true, if_neg Bool.false_ne_true, hspace]
      dsimp only
      by_cases hmem : name.base ∈ earlier.map Attribute.name
      · have htwice : ¬ ((earlier ++ ⟨none, name.base, value⟩ :: kept rest).map
            Attribute.name).Nodup := by
          rw [List.map_append, List.map_cons, List.nodup_append]
          rintro ⟨_, _, hdisjoint⟩
          exact hdisjoint _ hmem _ List.mem_cons_self rfl
        rw [if_pos (hgiven.mpr hmem), if_neg htwice]
      · have hsnoc : ((earlier ++ [(⟨none, name.base, value⟩ : Attribute)]).map
            Attribute.name).Nodup := by
          rw [List.map_append, List.nodup_append_comm]
          exact List.nodup_cons.mpr ⟨hmem, hnodup⟩
        have hplain' : ∀ a ∈ earlier ++ [(⟨none, name.base, value⟩ : Attribute)],
            a.space = none := by
          intro a ha
          rcases List.mem_append.mp ha with ha | ha
          · exact hearlier a ha
          · rw [List.mem_singleton.mp ha]
        rw [if_neg (mt hgiven.mp hmem), ih hrest hplain' hsnoc, List.append_assoc,
          List.singleton_append]

variable {read' : List ReadAttribute} (hperm : read.Perm read')

include hperm

theorem rel_declarations? :
    Option.Rel (fun _ _ => True) (declarations? [] read) (declarations? [] read') := by
  have hplain' : ∀ p ∈ read', p.1.qualifier = [] := fun p hp => hplain p (hperm.mem_iff.mpr hp)
  have hsome : (declarations? [] read).isSome = (declarations? [] read').isSome := by
    rw [isSome_declarations? hplain, isSome_declarations? hplain', hperm.all_eq]
  generalize declarations? [] read = own at hsome ⊢
  generalize declarations? [] read' = own' at hsome ⊢
  cases own with
  | none =>
    cases own' with
    | none => exact .none
    | some _ => cases hsome
  | some _ =>
    cases own' with
    | none => cases hsome
    | some _ => exact .some trivial

theorem rel_resolve? (scope scope' : Scope) :
    Option.Rel SameAttributes (resolve? scope [] read) (resolve? scope' [] read') := by
  have hplain' : ∀ p ∈ read', p.1.qualifier = [] := fun p hp => hplain p (hperm.mem_iff.mpr hp)
  have hkept : (kept read).Perm (kept read') := (hperm.filter _).map _
  have hnodup := (hkept.map Attribute.name).nodup_iff
  rw [resolve?_eq hplain scope (fun _ h => absurd h List.not_mem_nil) List.nodup_nil,
    resolve?_eq hplain' scope' (fun _ h => absurd h List.not_mem_nil) List.nodup_nil,
    List.nil_append, List.nil_append]
  by_cases hdistinct : ((kept read).map Attribute.name).Nodup
  · rw [if_pos hdistinct, if_pos (hnodup.mp hdistinct)]
    refine .some ⟨hkept, fun a ha => ?_, hdistinct⟩
    obtain ⟨p, _, rfl⟩ := List.mem_map.mp ha
    rfl
  · rw [if_neg hdistinct, if_neg (mt hnodup.mpr hdistinct)]
    exact .none

end Attributes

namespace Progress

theorem rel_frame? {name : QName} {attributes attributes' : List RawAttribute}
    (hname : name.qualifier = []) (hplain : ∀ a ∈ attributes, a.name.qualifier = [])
    (hperm : attributes.Perm attributes') (p p' : Progress) :
    Option.Rel Frame.Reordered (p.frame? name attributes) (p'.frame? name attributes') := by
  rcases rel_cases (readAttributes_perm hperm) with
    ⟨hread, hread'⟩ | ⟨read, read', hread, hread', hperm⟩
  · rw [frame?, frame?, hread, hread']
    exact .none
  · have hnames : ∀ q ∈ read, q.1.qualifier = [] := by
      intro q hq
      have hmem := List.mem_map_of_mem (f := Prod.fst) hq
      rw [map_fst_readAttributes hread] at hmem
      obtain ⟨a, ha, heq⟩ := List.mem_map.mp hmem
      rw [← heq]
      exact hplain a ha
    have hadmits : ∀ scope : Scope,
        (name.qualifier == ("xmlns" : Text) || !scope.admits name.qualifier) = false := by
      intro scope
      rw [hname]
      rfl
    rw [frame?, frame?, hread, hread']
    change Option.Rel _ ((declarations? [] read).bind _) ((declarations? [] read').bind _)
    refine rel_bind (rel_declarations? hnames hperm) fun own own' _ => ?_
    dsimp only
    rw [hadmits, hadmits, if_neg Bool.false_ne_true, if_neg Bool.false_ne_true]
    exact rel_bind (rel_resolve? hnames hperm _ _) fun _ _ hsame => .some ⟨rfl, hsame, .nil⟩

end Progress

namespace Frame.Reordered

variable {f f' : Frame} (h : f.Reordered f')

include h

theorem node : Node.Reordered f.node f'.node := by
  rw [Frame.node, Frame.node, h.name]
  exact .element h.attributes (List.rel_reverse h.latest)

theorem add {child child' : Node} (hchild : child.Reordered child') :
    (f.add child).Reordered (f'.add child') :=
  ⟨h.name, h.attributes, .cons hchild h.latest⟩

theorem addText (content : Text) : (f.addText content).Reordered (f'.addText content) := by
  have hlatest := h.latest
  unfold Frame.addText
  generalize f.latest = latest at hlatest ⊢
  generalize f'.latest = latest' at hlatest ⊢
  cases hlatest with
  | nil => exact h.add (.text content)
  | cons hnode hrest =>
    cases hnode with
    | element hattributes hchildren => exact h.add (.text content)
    | text before => exact ⟨h.name, h.attributes, .cons (.text _) hrest⟩
    | aside => exact h.add (.text content)

end Frame.Reordered

namespace Progress.Reordered

variable {p p' : Progress} (h : p.Reordered p')

include h

theorem isEmpty_frames : p.frames.isEmpty = p'.frames.isEmpty := by
  have hframes := h.frames
  generalize p.frames = frames at hframes ⊢
  generalize p'.frames = frames' at hframes ⊢
  cases hframes <;> rfl

theorem finish {node node' : Node} (hnode : node.Reordered node') :
    (p.finish node).Reordered (p'.finish node') := by
  have hframes := h.frames
  unfold Progress.finish
  generalize p.frames = frames at hframes ⊢
  generalize p'.frames = frames' at hframes ⊢
  cases hframes with
  | nil => exact ⟨.nil, .some hnode⟩
  | cons hframe houter => exact ⟨.cons (hframe.add hnode) houter, h.root⟩

theorem start? {name : QName} {attributes attributes' : List RawAttribute}
    (hname : name.qualifier = []) (hplain : ∀ a ∈ attributes, a.name.qualifier = [])
    (hperm : attributes.Perm attributes') (selfClosed : Bool) :
    Option.Rel Progress.Reordered (p.start? name attributes selfClosed)
      (p'.start? name attributes' selfClosed) := by
  rw [Progress.start?, Progress.start?, h.isEmpty_frames, rel_isSome h.root]
  split
  · exact .none
  · refine rel_map (rel_frame? hname hplain hperm p p') fun f f' hframe => ?_
    cases selfClosed with
    | true => exact h.finish hframe.node
    | false => exact ⟨.cons hframe h.frames, h.root⟩

theorem stop? (name : QName) :
    Option.Rel Progress.Reordered (p.stop? name) (p'.stop? name) := by
  have hframes := h.frames
  unfold Progress.stop?
  generalize p.frames = frames at hframes ⊢
  generalize p'.frames = frames' at hframes ⊢
  cases hframes with
  | nil => exact .none
  | cons hframe houter =>
    dsimp only
    rw [hframe.name]
    split
    · have houter : Progress.Reordered ⟨_, p.root⟩ ⟨_, p'.root⟩ := ⟨houter, h.root⟩
      exact .some (houter.finish hframe.node)
    · exact .none

theorem text? (written : Text) :
    Option.Rel Progress.Reordered (p.text? written) (p'.text? written) := by
  have hframes := h.frames
  unfold Progress.text?
  generalize p.frames = frames at hframes ⊢
  generalize p'.frames = frames' at hframes ⊢
  cases hframes with
  | nil =>
    dsimp only
    split
    · exact .some h
    · exact .none
  | cons hframe houter =>
    dsimp only
    cases contentText? written with
    | none => exact .none
    | some content => exact .some ⟨.cons (hframe.addText content) houter, h.root⟩

theorem literal? (written : Text) :
    Option.Rel Progress.Reordered (p.literal? written) (p'.literal? written) := by
  have hframes := h.frames
  unfold Progress.literal?
  generalize p.frames = frames at hframes ⊢
  generalize p'.frames = frames' at hframes ⊢
  cases hframes with
  | nil => exact .none
  | cons hframe houter => exact .some ⟨.cons (hframe.addText _) houter, h.root⟩

theorem aside : p.aside.Reordered p'.aside := by
  have hframes := h.frames
  unfold Progress.aside
  generalize p.frames = frames at hframes ⊢
  generalize p'.frames = frames' at hframes ⊢
  cases hframes with
  | nil => exact h
  | cons hframe houter => exact ⟨.cons (hframe.add .aside) houter, h.root⟩

theorem step? {token token' : Token} (htoken : token.Reordered token') :
    Option.Rel Progress.Reordered (p.step? token) (p'.step? token') := by
  cases htoken with
  | opening hname hplain hperm => exact h.start? hname hplain hperm _
  | closing name => exact h.stop? name
  | text content => exact h.text? content
  | literal content => exact h.literal? content
  | aside => exact .some h.aside

omit h in
theorem run? {tokens tokens' : List Token} (htokens : List.Forall₂ Token.Reordered tokens tokens')
    (h : p.Reordered p') : Option.Rel Progress.Reordered (p.run? tokens) (p'.run? tokens') := by
  induction htokens generalizing p p' with
  | nil => exact .some h
  | cons htoken _ ih => exact rel_bind (h.step? htoken) fun _ _ hnext => ih hnext

end Progress.Reordered

theorem document?_eq (t : Text) :
    document? t = (tokens? t).bind fun tokens => (({} : Progress).run? tokens).bind fun p =>
      if p.frames.isEmpty then p.root.bind Node.element? else none := by
  rw [document?, tokens?, Option.bind_assoc]
  rfl

theorem rel_element? {node node' : Node} (h : node.Reordered node') :
    Option.Rel Element.Reordered node.element? node'.element? := by
  cases h with
  | element hattributes hchildren => exact .some ⟨rfl, hattributes, hchildren⟩
  | text content => exact .none
  | aside => exact .none

/-- Both texts are documents or neither is, and their elements are the same but for the order of the
attributes. -/
theorem rel_document? {t t' : Text} (h : Reordered t t') :
    Option.Rel Element.Reordered (document? t) (document? t') := by
  obtain ⟨tokens, tokens', ht, ht', htokens⟩ := h
  have hstart : Progress.Reordered {} {} := ⟨.nil, .none⟩
  rw [document?_eq, document?_eq, ht, ht', Option.bind_some, Option.bind_some]
  refine rel_bind (Progress.Reordered.run? htokens hstart) fun p p' hp => ?_
  rw [hp.isEmpty_frames]
  split
  · exact rel_bind hp.root fun _ _ => rel_element?
  · exact .none

end SchemaPackage.Markup
