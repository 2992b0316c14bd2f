import RetainedUi.Proofs.Edit.Refinement
import RetainedUi.Proofs.Text.Utf8
import RetainedUi.Proofs.Wire.Drafts
import RetainedUi.Proofs.Wire.Word

/-!
# Settings of a node

A producer sets the kind, the properties and the text of a node by typed values. A store takes each of them
from its records as it was given, and of the values for one property the last one counts.
-/

namespace RetainedUi

open Edit

/-! ## Values on the wire -/

/-- The bytes of a word are those that it was put together from. -/
theorem Padding.unpack_pack (p : Padding) : unpack p.pack = p := by
  have hbytes := Word.encode_ofBytes p.left p.bottom p.right p.top
  simp only [Word.encode, Word.encodeUnsigned, List.cons.injEq, and_true] at hbytes
  obtain ⟨hleft, hbottom, hright, htop⟩ := hbytes
  simp only [unpack, pack, hleft, hbottom, hright, htop]

namespace Props

variable (p : Props)

theorem set?_mainAlign (a : Align) :
    p.set? PropKey.mainAlign a.code = some { p with mainAlign := a } :=
  congrArg (fun a => (some { p with mainAlign := a } : Option Props)) a.ofCode_code

theorem set?_crossAlign (a : Align) :
    p.set? PropKey.crossAlign a.code = some { p with crossAlign := a } :=
  congrArg (fun a => (some { p with crossAlign := a } : Option Props)) a.ofCode_code

theorem set?_padding (q : Padding) : p.set? PropKey.padding q.pack = some { p with padding := q } :=
  congrArg (fun q => (some { p with padding := q } : Option Props)) q.unpack_pack

end Props

/-! ## Settings -/

/-- What a producer sets of a node in one instruction. -/
inductive Setting where
  | kind (k : NodeKind)
  | align (main cross : Align)
  | gap (d : Int32)
  | padding (p : Padding)
  | size (width height : Int32)
  | text (t : String)
deriving DecidableEq, Repr

namespace Setting

/-- The instruction for the node that a word names. -/
def instruction (word : Int32) : Setting → Instruction
  | kind k => .createNode word k
  | align main cross => .setAlign word main cross
  | gap d => .setGap word d
  | padding p => .setPadding word p
  | size width height => .setSize word width height
  | text t => .setText word t

/-- The node with the values of a setting. -/
def set (n : Node) : Setting → Node
  | kind k => { n with kind := k }
  | align main cross => { n with props := { n.props with mainAlign := main, crossAlign := cross } }
  | gap d => { n with props := { n.props with gap := d } }
  | padding p => { n with props := { n.props with padding := p } }
  | size width height => { n with props := { n.props with width, height } }
  | text t => { n with text := some t }

/-- A string record can carry the text, if there is one. -/
def Sendable : Setting → Prop
  | text t => (Utf8.encode t).length ≤ Instruction.maxPayload
  | _ => True

instance : DecidablePred Sendable
  | text t => inferInstanceAs (Decidable ((Utf8.encode t).length ≤ Instruction.maxPayload))
  | kind _ | align .. | gap _ | padding _ | size .. => .isTrue trivial

def kind? : Setting → Option NodeKind
  | kind k => some k
  | _ => none

def align? : Setting → Option (Align × Align)
  | align main cross => some (main, cross)
  | _ => none

def gap? : Setting → Option Int32
  | gap d => some d
  | _ => none

def padding? : Setting → Option Padding
  | padding p => some p
  | _ => none

def size? : Setting → Option (Int32 × Int32)
  | size width height => some (width, height)
  | _ => none

def text? : Setting → Option String
  | text t => some t
  | _ => none

/-! ## The last value -/

section Last

variable {α : Type} {value? : Setting → Option α}

/-- The value that the last setting with one has. -/
def last? (value? : Setting → Option α) (settings : List Setting) : Option α :=
  (settings.filterMap value?).getLast?

theorem last?_cons (a : Setting) (settings : List Setting) :
    last? value? (a :: settings) = (last? value? settings).or (value? a) := by
  rw [last?, last?, List.filterMap_cons]
  cases value? a with
  | none => rw [Option.or_none]
  | some v => rw [List.getLast?_cons]; cases (settings.filterMap value?).getLast? <;> rfl

end Last

/-- A node after settings has of each property the last value, or else the one it had; its id and its links
stay. -/
theorem foldl_set (n : Node) (settings : List Setting) :
    settings.foldl set n =
      { n with
        kind := (last? kind? settings).getD n.kind
        props := {
          mainAlign := ((last? align? settings).getD (n.props.mainAlign, n.props.crossAlign)).1
          crossAlign := ((last? align? settings).getD (n.props.mainAlign, n.props.crossAlign)).2
          gap := (last? gap? settings).getD n.props.gap
          padding := (last? padding? settings).getD n.props.padding
          width := ((last? size? settings).getD (n.props.width, n.props.height)).1
          height := ((last? size? settings).getD (n.props.width, n.props.height)).2 }
        text := (last? text? settings).or n.text } := by
  induction settings generalizing n with
  | nil => rfl
  | cons a settings ih =>
      simp only [List.foldl_cons, ih, last?_cons, Option.getD_or, Option.or_assoc]
      cases a <;> rfl

end Setting

/-! ## Records that change one node -/

namespace Store

variable {word : Int32} {h : Handle}

/-- A word names the node of a handle. -/
structure Finds (s : Store) (word : Int32) (h : Handle) : Prop where
  named : ∃ x, NodeId.ofWord? word = some x ∧ s.handle? x = some h
  live : ∃ n, s.get? h = some n

theorem Finds.modify {s : Store} (hs : s.Finds word h) (f : Node → Node) : (s.modify h f).Finds word h where
  named := hs.named
  live := by
    obtain ⟨n, hn⟩ := hs.live
    exact ⟨_, by rw [get?_modify, hn, Option.map_some]⟩

/-- Every store in which the word names the node of the handle grants the records, and they change that
node and nothing else. -/
def Changes (word : Int32) (h : Handle) (rs : List Record) (f : Node → Node) : Prop :=
  ∀ s : Store, s.Finds word h → s.applyAll rs = (List.replicate rs.length (.ok ()), s.modify h f)

theorem changes_nil (word : Int32) (h : Handle) : Changes word h [] id := fun s _ => by
  rw [modify_id]
  rfl

theorem Changes.append {rs rs' : List Record} {f g : Node → Node} (hf : Changes word h rs f)
    (hg : Changes word h rs' g) : Changes word h (rs ++ rs') (g ∘ f) := fun s hs => by
  rw [applyAll_append, hf s hs, hg _ (hs.modify f), modify_modify, List.length_append,
    List.replicate_append_replicate]

theorem changes_singleton {r : Record} {f : Node → Node}
    (hr : ∀ s : Store, s.Finds word h → s.apply r = (.ok (), s.modify h f)) : Changes word h [r] f :=
  fun s hs => by simp only [applyAll, hr s hs, List.length_singleton, List.replicate_one]

theorem changes_createNode (word : Int32) (h : Handle) (k : NodeKind) :
    Changes word h [.createNode word k.code] fun n => { n with kind := k } :=
  changes_singleton fun s hs => by
    obtain ⟨⟨x, hx, hh⟩, n, hn⟩ := hs
    simp only [apply, ofRecord, createNode, hx, NodeKind.ofCode?_code, run_bind, run_get, hh,
      run_modifyNode hn]

theorem changes_setProp {key value : Int32} {g : Props → Props}
    (hg : ∀ p : Props, p.set? key value = some (g p)) :
    Changes word h [.setProp word key value] fun n => { n with props := g n.props } :=
  changes_singleton fun s hs => by
    obtain ⟨⟨x, hx, hh⟩, n, hn⟩ := hs
    simp only [apply, ofRecord, setProp, run_bind, run_resolve_of_live hx hh, run_get, hn, hg,
      run_modify]
    rw [modify_congr hn]
    rfl

theorem changes_setPropStr (word : Int32) (h : Handle) (payload : Bytes) :
    Changes word h [.setPropStr word PropKey.text payload]
      fun n => { n with text := some (Utf8.decodeLossy payload) } :=
  changes_singleton fun s hs => by
    obtain ⟨⟨x, hx, hh⟩, n, hn⟩ := hs
    simp only [apply, ofRecord, setPropStr, run_bind, run_resolve_of_live hx hh, ne_eq,
      not_true_eq_false, ↓reduceIte, run_modifyNode hn]

theorem changes_records (word : Int32) (h : Handle) {a : Setting} (ha : a.Sendable) :
    Changes word h (a.instruction word).records (a.set ·) := by
  cases a with
  | kind k => exact changes_createNode word h k
  | align main cross =>
      exact (changes_setProp fun p => p.set?_mainAlign main).append
        (changes_setProp fun p => p.set?_crossAlign cross)
  | gap d => exact changes_setProp (g := fun p => { p with gap := d }) fun _ => rfl
  | padding q => exact changes_setProp fun p => p.set?_padding q
  | size width height =>
      exact (changes_setProp (g := fun p => { p with width }) fun _ => rfl).append
        (changes_setProp (g := fun p => { p with height }) fun _ => rfl)
  | text t =>
      have htake : (Utf8.encode t).take Instruction.maxPayload = Utf8.encode t :=
        List.take_of_length_le ha
      have ht := changes_setPropStr word h (Utf8.encode t)
      rw [Utf8.decodeLossy_encode, ← htake] at ht
      exact ht

theorem changes_settings (word : Int32) (h : Handle) {settings : List Setting}
    (hs : ∀ a ∈ settings, a.Sendable) :
    Changes word h (settings.flatMap fun a => (a.instruction word).records)
      fun n => settings.foldl Setting.set n := by
  induction settings with
  | nil => exact changes_nil word h
  | cons a settings ih =>
      rw [List.forall_mem_cons] at hs
      exact (changes_records word h hs.1).append (ih hs.2)

/-! ## What is seen of a changed node -/

variable {s : Store} {f : Node → Node}

theorem node?_modify (s : Store) (h : Handle) (f : Node → Node) (y : NodeId) :
    (s.modify h f).node? y =
      (s.handle? y).bind fun k => (s.get? k).map fun m => if k = h then f m else m :=
  congrArg (s.handle? y).bind (funext (get?_modify s h f))

theorem Arena.node?_modify_of_get? (ha : s.Arena) {n : Node} (hn : s.get? h = some n) (y : NodeId) :
    (s.modify h f).node? y = if y = n.id then some (f n) else s.node? y := by
  rw [node?_modify]
  by_cases hy : y = n.id
  · rw [if_pos hy, hy, (ha.handle?_iff n.id h).mpr (id?_of_get? hn), Option.bind_some, hn,
      Option.map_some, if_pos rfl]
  · rw [if_neg hy, node?]
    cases hk : s.handle? y with
    | none => rfl
    | some k =>
        obtain ⟨m, hm, rfl⟩ := ha.get?_of_handle? hk
        have hkh : k ≠ h := fun e => hy ((ha.eq_iff_id_eq hm hn).mp e)
        rw [Option.bind_some, Option.bind_some, hm, Option.map_some, if_neg hkh]

/-- A change that leaves a part of the node alone leaves it everywhere. -/
theorem map_node?_modify {α : Type} {part : Node → α} (hf : ∀ m, part (f m) = part m) (y : NodeId) :
    ((s.modify h f).node? y).map part = (s.node? y).map part := by
  rw [node?_modify, node?, Option.map_bind, Option.map_bind]
  refine Option.bind_congr fun k _ => ?_
  rw [Function.comp_apply, Function.comp_apply, Option.map_map]
  refine congrArg (Option.map · _) (funext fun m => ?_)
  rw [Function.comp_apply]
  split
  · exact hf m
  · rfl

theorem childIds_eq_map (s : Store) (y : NodeId) :
    s.childIds y = ((s.node? y).map Node.children).elim [] fun l => l.toList.filterMap s.id? := by
  rw [childIds]
  cases s.node? y <;> rfl

theorem parentOf_eq_map (s : Store) (y : NodeId) :
    s.parentOf y = ((s.node? y).map Node.parent).elim none fun p => p.bind s.id? := by
  rw [parentOf]
  cases s.node? y <;> rfl

theorem childIds_modify (hid : ∀ m, (f m).id = m.id) (hf : ∀ m, (f m).children = m.children)
    (y : NodeId) : (s.modify h f).childIds y = s.childIds y := by
  rw [childIds_eq_map, childIds_eq_map, map_node?_modify hf, funext (keeps_modify s h f hid).id?]

theorem parentOf_modify (hid : ∀ m, (f m).id = m.id) (hf : ∀ m, (f m).parent = m.parent)
    (y : NodeId) : (s.modify h f).parentOf y = s.parentOf y := by
  rw [parentOf_eq_map, parentOf_eq_map, map_node?_modify hf, funext (keeps_modify s h f hid).id?]

end Store

end RetainedUi
