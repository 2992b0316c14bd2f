import RetainedUi.Proofs.Edit.Reachable
import RetainedUi.Proofs.Edit.Settings
import RetainedUi.Proofs.Forest.Effects
import RetainedUi.Proofs.Session.Counters
import RetainedUi.Proofs.Wire.Drafts

/-!
# Settings in a session

What a producer sets of a node by typed values, and sends in one patch, is what the node in the tree of the
session then has.
-/

namespace RetainedUi.Session

variable {σ : Type}

/-! ## Sessions that were created -/

section Created

variable [FrameSink σ]

theorem reachable_step {s : Session σ} (hs : s.store.Reachable) (call : HostCall) :
    (s.step call).2.store.Reachable := by
  cases call with
  | patch bytes =>
      rw [step, applyPatch_eq]
      exact hs.applyAll _
  | frame timestamp room =>
      rcases s.request_cases timestamp room with h | ⟨blank, _, h⟩ <;> rw [step, h] <;> exact hs
  | input e => exact hs
  | drain => exact hs

theorem reachable_run {s : Session σ} (hs : s.store.Reachable) (calls : List HostCall) :
    (s.run calls).2.store.Reachable := by
  induction calls generalizing s with
  | nil => exact hs
  | cons call calls ih => exact ih (reachable_step hs call)

theorem reachable_of_create {config : Config} {sink : σ} {s : Session σ}
    (hs : create config sink = .ok s) (calls : List HostCall) : (s.run calls).2.store.Reachable := by
  obtain ⟨surface, device, started, rfl⟩ := eq_opened_of_create hs
  exact reachable_run .empty calls

end Created

/-! ## Patches that are granted -/

theorem applyPatch_of_granted (s : Session σ) {bytes : Bytes} {rs : List Record} {t : Store}
    (hbytes : Accepted bytes) (hread : decodePatch bytes = ⟨rs, none, bytes.length⟩)
    (hrun : s.store.applyAll rs = (List.replicate rs.length (.ok ()), t)) :
    (s.applyPatch bytes).1 = { applied := rs.length, consumed := bytes.length } ∧
      (s.applyPatch bytes).2.store = t := by
  have hstatus := s.status_applyPatch hbytes
  rw [applyPatch_eq] at hstatus ⊢
  simp only [hread, hrun] at hstatus ⊢
  have happlied : (List.replicate rs.length (.ok () : Except EditError Unit)).countP Except.isOk =
      rs.length := by
    rw [List.countP_replicate, isOk_ok, if_pos rfl]
  have hrejected : (List.replicate rs.length (.ok () : Except EditError Unit)).countP (!·.isOk) = 0 := by
    rw [List.countP_replicate, isOk_ok, Bool.not_true, if_neg Bool.false_ne_true]
  refine ⟨?_, trivial⟩
  rw [hstatus, happlied, hrejected, (findSome?_refusal?_eq_none_iff _).mpr hrejected]
  rfl

/-! ## Settings -/

theorem decodePatch_settings (word : Int32) (settings : List Setting) :
    let patch := (Draft.ofInstructions (settings.map (·.instruction word))).toPatch
    decodePatch patch =
      ⟨settings.flatMap fun a => (a.instruction word).records, none, patch.length⟩ := by
  intro patch
  have hraw : ∀ i ∈ settings.map (·.instruction word), ∀ bytes, i ≠ .raw bytes := by
    intro i hi bytes
    obtain ⟨a, _, rfl⟩ := List.mem_map.mp hi
    cases a <;> exact nofun
  rw [Draft.decodePatch_ofInstructions hraw, List.flatMap_map]

open Setting

/-- In a session that was created, and then called in any way, a patch of settings for the node that a word
names is applied whole. The node has of each property the value that was set last, as it was given, or else
the one that it had. Its children, its parent and all other nodes stay. -/
theorem applyPatch_settings [FrameSink σ] {config : Config} {sink : σ} {first : Session σ}
    (hfirst : create config sink = .ok first) (calls : List HostCall) {word : Int32} {x : NodeId}
    (hx : (first.run calls).2.store.named word = .ok x) {settings : List Setting}
    (hsettings : ∀ a ∈ settings, a.Sendable) :
    let s := (first.run calls).2
    let patch := (Draft.ofInstructions (settings.map (·.instruction word))).toPatch
    let report := (s.applyPatch patch).1
    let t := (s.applyPatch patch).2.store
    report = {
      status := .complete
      applied := (settings.flatMap fun a => (a.instruction word).records).length
      rejected := 0
      consumed := patch.length
      firstRejection := none } ∧
    (∃ n m, s.store.node? x = some n ∧ t.node? x = some m ∧
      m.id = n.id ∧ m.children = n.children ∧ m.parent = n.parent ∧
      m.kind = (last? kind? settings).getD n.kind ∧
      (m.props.mainAlign, m.props.crossAlign) =
        (last? align? settings).getD (n.props.mainAlign, n.props.crossAlign) ∧
      m.props.gap = (last? gap? settings).getD n.props.gap ∧
      m.props.padding = (last? padding? settings).getD n.props.padding ∧
      (m.props.width, m.props.height) =
        (last? size? settings).getD (n.props.width, n.props.height) ∧
      m.text = (last? text? settings).or n.text) ∧
    (∀ y, y ≠ x → t.node? y = s.store.node? y) ∧
    (∀ y, t.handle? y = s.store.handle? y ∧ t.childIds y = s.store.childIds y ∧
      t.parentOf y = s.store.parentOf y) ∧
    t.ids = s.store.ids ∧ t.parentless = s.store.parentless := by
  intro s patch report t
  have hw := (reachable_of_create hfirst calls).wellFormed
  obtain ⟨hname, hlive⟩ := Store.named_eq_ok_iff.mp hx
  obtain ⟨_, hnode⟩ := Option.isSome_iff_exists.mp hlive
  obtain ⟨h, hh, -⟩ := Option.bind_eq_some_iff.mp hnode
  obtain ⟨n, hn, rfl⟩ := hw.get?_of_handle? hh
  have hrun := Store.changes_settings word h hsettings s.store ⟨⟨n.id, hname, hh⟩, n, hn⟩
  obtain ⟨hreport, hstore : t = _⟩ := s.applyPatch_of_granted (Draft.accepted_toPatch _)
    (decodePatch_settings word settings) hrun
  have hafter := fun y => hw.node?_modify_of_get? (f := fun n => settings.foldl Setting.set n) hn y
  have hset := fun m => foldl_set m settings
  rw [hstore]
  refine ⟨hreport, ⟨n, settings.foldl Setting.set n, hw.node?_eq hn, ?_, ?_⟩, fun y hy => ?_,
    fun y => ⟨rfl, ?_, ?_⟩, rfl, rfl⟩
  · rw [hafter, if_pos rfl]
  · rw [hset]
    exact ⟨rfl, rfl, rfl, rfl, rfl, rfl, rfl, rfl, rfl⟩
  · rw [hafter, if_neg hy]
  · exact Store.childIds_modify (fun m => by rw [hset]) (fun m => by rw [hset]) y
  · exact Store.parentOf_modify (fun m => by rw [hset]) (fun m => by rw [hset]) y

/-- A patch with one column in it. -/
def columnPatch : Bytes := (Draft.ofInstructions [.createNode 1 .column]).toPatch

/-- A gap that is set twice, and others once. -/
def sampleSettings : List Setting :=
  [.gap 5, .text "né", .padding { left := 1, top := 200 }, .align .center .end, .gap (-7), .kind .row]

theorem applyPatch_settings_sample :
    ∃ first : Session NullSink, create { width := 2, height := 1 } ({} : NullSink) = .ok first ∧
      let s := (first.run [.patch columnPatch]).2
      let patch := (Draft.ofInstructions (sampleSettings.map (·.instruction 1))).toPatch
      s.store.named 1 = .ok ⟨1⟩ ∧ (s.applyPatch patch).1.applied = 7 ∧
        ∃ m, (s.applyPatch patch).2.store.node? ⟨1⟩ = some m ∧ m.kind = .row ∧ m.props.gap = -7 ∧
          m.props.padding = { left := 1, top := 200 } ∧ m.text = some "né" := by
  obtain ⟨first, hfirst, hempty⟩ : ∃ first : Session NullSink,
      create { width := 2, height := 1 } ({} : NullSink) = .ok first ∧ first.store = .empty :=
    ⟨_, create_of_started rfl rfl, rfl⟩
  have hread : decodePatch columnPatch = ⟨[.createNode 1 1], none, columnPatch.length⟩ :=
    Draft.decodePatch_ofInstructions (by simp)
  have hstore : (first.applyPatch columnPatch).2.store = (Store.empty.apply (.createNode 1 1)).2 :=
    (first.applyPatch_of_granted (Draft.accepted_toPatch _) hread (by rw [hempty]; rfl)).2
  have hnamed : (first.run [.patch columnPatch]).2.store.named 1 = .ok ⟨1⟩ := by
    rw [run, run, step, hstore]
    decide
  have hsettings : ∀ a ∈ sampleSettings, a.Sendable := by decide
  obtain ⟨hreport, ⟨n, m, -, hm, -, -, -, hkind, -, hgap, hpadding, -, htext⟩, -⟩ :=
    applyPatch_settings hfirst [.patch columnPatch] hnamed hsettings
  exact ⟨first, hfirst, hnamed, congrArg PatchReport.applied hreport, m, hm, hkind, hgap, hpadding, htext⟩

end RetainedUi.Session
