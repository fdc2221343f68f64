import PackageScaffold.Proofs.Except
import PackageScaffold.Yaml.Document

/-!
# Texts whose tokens end in a fault

A fault that ends the tokens of a text stays in front of the reader of nodes, which looks for the
end of the document before it is done.  So there is no value of such a text.

* `Keeps`: steps of reading that leave the fault as it is;
* `keeps_readers`: every reader of nodes is such a step;
* `exists_read_eq_error`: a text whose tokens end in a fault cannot be read.
-/

namespace PackageScaffold.Yaml

variable {α β : Type}

/-- A step of reading that leaves the fault at the end of the tokens as it is. -/
def Keeps (x : Reading α) : Prop :=
  ∀ (r : Reader) (a : α) (r' : Reader), x.run r = .ok (a, r') → r'.fault = r.fault

namespace Keeps

theorem pure (a : α) : Keeps (Pure.pure a : Reading α) := by
  rintro r b r' h
  obtain ⟨-, rfl⟩ := Prod.mk.inj (Except.ok.inj h)
  rfl

theorem throw (fault : Fault) : Keeps (MonadExcept.throw fault : Reading α) := by
  rintro r a r' h
  cases h

theorem fail (defect : Defect) : Keeps (Yaml.fail defect : Reading α) :=
  throw _

theorem get : Keeps (MonadState.get : Reading Reader) := by
  rintro r a r' h
  obtain ⟨-, rfl⟩ := Prod.mk.inj (Except.ok.inj h)
  rfl

theorem change {f : Reader → Reader} (h : ∀ r, (f r).fault = r.fault) :
    Keeps (modify f : Reading Unit) := by
  rintro r a r' hrun
  obtain ⟨-, rfl⟩ := Prod.mk.inj (Except.ok.inj hrun)
  exact h r

theorem bind {x : Reading α} {f : α → Reading β} (hx : Keeps x) (hf : ∀ a, Keeps (f a)) :
    Keeps (x >>= f) := by
  intro r b r' h
  rw [StateT.run_bind] at h
  obtain ⟨⟨a, middle⟩, hfirst, hrest⟩ := bind_eq_ok h
  exact (hf a middle b r' hrest).trans (hx r a middle hfirst)

theorem ite {p : Prop} [Decidable p] {x y : Reading α} (hx : Keeps x) (hy : Keeps y) :
    Keeps (if p then x else y) := by
  split
  · exact hx
  · exact hy

end Keeps

theorem keeps_peek : Keeps peek := by
  refine .bind .get fun r => ?_
  split
  · exact .pure _
  · exact .throw _
  · exact .pure _

theorem keeps_pass : Keeps pass :=
  .change fun _ => rfl

theorem keeps_passIf (token : Token) : Keeps (passIf token) :=
  .bind keeps_peek fun _ => .ite (.bind keeps_pass fun _ => .pure _) (.pure _)

theorem keeps_isNext (tokens : List Token) : Keeps (isNext tokens) := by
  refine .bind keeps_peek fun token? => ?_
  split
  · exact .pure _
  · exact .pure _

theorem keeps_expandTag (tag : TagText) : Keeps (expandTag tag) := by
  unfold expandTag
  split
  · exact .pure _
  · refine .bind .get fun r => ?_
    split
    · exact .pure _
    · exact .fail _

theorem keeps_readProperties : Keeps readProperties := by
  refine .bind keeps_peek fun token? => ?_
  split
  · refine .bind keeps_pass fun _ => .bind keeps_peek fun next? => ?_
    split
    · exact .bind keeps_pass fun _ => .bind (keeps_expandTag _) fun _ => .pure _
    · exact .pure _
  · refine .bind keeps_pass fun _ => .bind keeps_peek fun next? => ?_
    split
    · exact .bind keeps_pass fun _ => .bind (keeps_expandTag _) fun _ => .pure _
    · exact .bind (keeps_expandTag _) fun _ => .pure _
  · exact .pure _

theorem keeps_remember (anchor : Option String) (id : NodeId) : Keeps (remember anchor id) := by
  unfold remember
  split
  · exact .pure _
  · exact .change fun _ => rfl

theorem keeps_addNode (node : Node) : Keeps (addNode node) :=
  .bind .get fun _ => .bind (.change fun _ => rfl) fun _ => .pure _

theorem keeps_checkAnchor (anchor : Option String) : Keeps (checkAnchor anchor) := by
  unfold checkAnchor
  split
  · exact .pure _
  · exact .bind .get fun _ => .ite (.fail _) (.pure _)

theorem keeps_addText (anchor : Option String) (tag : Tag) (wording : Text.Wording) :
    Keeps (addText anchor tag wording) :=
  .bind (keeps_addNode _) fun _ => .bind (keeps_remember _ _) fun _ => .pure _

theorem keeps_addCollection (anchor : Option String) (tag : Tag) (body : List α → Body)
    {read : Reading (List α)} (h : Keeps read) : Keeps (addCollection anchor tag body read) := by
  have hfill (id : NodeId) : Keeps (do
      modify fun r => { r with depth := r.depth + 1 }
      let content ← read
      modify fun r => { r with depth := r.depth - 1, graph := r.graph.setBody id (body content) }
      return id) :=
    .bind (.change fun _ => rfl) fun _ => .bind h fun _ =>
      .bind (.change fun _ => rfl) fun _ => .pure _
  refine .bind (keeps_addNode _) fun id => .bind (keeps_remember _ _) fun _ =>
    .bind .get fun _ => ?_
  exact .ite (.bind (.throw _) fun _ => hfill id) (hfill id)

/-- Every reader of nodes with the given fuel leaves the fault as it is. -/
structure AllKeep (fuel : Nat) : Prop where
  node : ∀ inBlock afterKey, Keeps (readNode inBlock afterKey fuel)
  blockItems : Keeps (readBlockItems fuel)
  hangingItems : Keeps (readHangingItems fuel)
  blockEntries : Keeps (readBlockEntries fuel)
  flowItems : ∀ first, Keeps (readFlowItems first fuel)
  flowPair : Keeps (readFlowPair fuel)
  flowEntries : ∀ first, Keeps (readFlowEntries first fuel)

theorem allKeep_zero : AllKeep 0 := by
  constructor
  all_goals
    intros
    exact .fail _

namespace AllKeep

variable {fuel : Nat} (h : AllKeep fuel)

include h

theorem readNode (inBlock afterKey : Bool) : Keeps (readNode inBlock afterKey (fuel + 1)) := by
  unfold Yaml.readNode
  refine .bind keeps_peek fun first? => ?_
  split
  · refine .bind keeps_pass fun _ => .bind .get fun r => ?_
    split
    · exact .pure _
    · exact .fail _
  · refine .bind keeps_readProperties fun (anchor, tag) => .bind keeps_peek fun token? =>
      .bind (keeps_checkAnchor _) fun _ => ?_
    split
    · exact .bind keeps_pass fun _ => keeps_addText _ _ _
    · exact .bind keeps_pass fun _ => keeps_addCollection _ _ _ (h.flowItems _)
    · exact .bind keeps_pass fun _ => keeps_addCollection _ _ _ (h.flowEntries _)
    · exact keeps_addCollection _ _ _ h.hangingItems
    · exact .bind keeps_pass fun _ => keeps_addCollection _ _ _ h.blockItems
    · exact .bind keeps_pass fun _ => keeps_addCollection _ _ _ h.blockEntries
    · exact .ite (keeps_addText _ _ _) (.fail _)

/-- A node that may be left out, and what is read behind it. -/
theorem optional (others : List Token) (inBlock afterKey : Bool) {next : NodeId → Reading α}
    (hnext : ∀ id, Keeps (next id)) : Keeps (do
      if ← isNext others then leaveOut >>= next else Yaml.readNode inBlock afterKey fuel >>=
        next) :=
  .bind (keeps_isNext _) fun _ => .ite (.bind (keeps_addNode _) hnext) (.bind (h.node _ _) hnext)

/-- The value of a key, which may be left out, and what is read behind it. -/
theorem value (others : List Token) (inBlock afterKey : Bool) {next : NodeId → Reading α}
    (hnext : ∀ id, Keeps (next id)) : Keeps (do
      if ← passIf .value then
        if ← isNext others then leaveOut >>= next else Yaml.readNode inBlock afterKey fuel >>= next
      else leaveOut >>= next) :=
  .bind (keeps_passIf _) fun _ => .ite (h.optional _ _ _ hnext) (.bind (keeps_addNode _) hnext)

theorem readBlockItems : Keeps (readBlockItems (fuel + 1)) :=
  .bind (keeps_passIf _) fun _ => .ite
    (h.optional _ _ _ fun _ => .bind h.blockItems fun _ => .pure _)
    (.bind (keeps_passIf _) fun _ => .ite (.pure _) (.fail _))

theorem readHangingItems : Keeps (readHangingItems (fuel + 1)) :=
  .bind (keeps_passIf _) fun _ => .ite
    (h.optional _ _ _ fun _ => .bind h.hangingItems fun _ => .pure _) (.pure _)

theorem readBlockEntries : Keeps (readBlockEntries (fuel + 1)) :=
  .bind (keeps_passIf _) fun _ => .ite
    (h.optional _ _ _ fun _ => h.value _ _ _ fun _ => .bind h.blockEntries fun _ => .pure _)
    (.bind (keeps_passIf _) fun _ => .ite (.pure _) (.fail _))

theorem readFlowPair : Keeps (readFlowPair (fuel + 1)) :=
  h.optional _ _ _ fun _ => h.value _ _ _ fun _ => .pure _

theorem readFlowItems (first : Bool) : Keeps (readFlowItems first (fuel + 1)) := by
  have hitem : Keeps (do
      if ← passIf .key then
        let item ← addCollection none .mapping .mapping (Yaml.readFlowPair fuel)
        return item :: (← Yaml.readFlowItems false fuel)
      else if ← passIf .flowListEnd then return []
      else
        let item ← Yaml.readNode false false fuel
        return item :: (← Yaml.readFlowItems false fuel)) :=
    .bind (keeps_passIf _) fun _ => .ite
      (.bind (keeps_addCollection _ _ _ h.flowPair) fun _ => .bind (h.flowItems _) fun _ => .pure _)
      (.bind (keeps_passIf _) fun _ => .ite (.pure _)
        (.bind (h.node _ _) fun _ => .bind (h.flowItems _) fun _ => .pure _))
  exact .bind (keeps_passIf _) fun _ => .ite (.pure _) <|
    .ite (.bind (keeps_passIf _) fun _ => .ite hitem (.bind (.fail _) fun _ => hitem)) hitem

theorem readFlowEntries (first : Bool) : Keeps (readFlowEntries first (fuel + 1)) := by
  have hentry : Keeps (do
      if ← passIf .key then
        let key ←
          if ← isNext [.value, .flowEntry, .flowMappingEnd] then leaveOut
          else Yaml.readNode false false fuel
        let value ←
          if ← passIf .value then
            if ← isNext [.flowEntry, .flowMappingEnd] then leaveOut
            else Yaml.readNode false false fuel
          else leaveOut
        return (key, value) :: (← Yaml.readFlowEntries false fuel)
      else if ← passIf .flowMappingEnd then return []
      else
        let key ← Yaml.readNode false false fuel
        return (key, ← leaveOut) :: (← Yaml.readFlowEntries false fuel)) :=
    .bind (keeps_passIf _) fun _ => .ite
      (h.optional _ _ _ fun _ => h.value _ _ _ fun _ => .bind (h.flowEntries _) fun _ => .pure _)
      (.bind (keeps_passIf _) fun _ => .ite (.pure _)
        (.bind (h.node _ _) fun _ => .bind (keeps_addNode _) fun _ =>
            .bind (h.flowEntries _) fun _ =>
          .pure _))
  exact .bind (keeps_passIf _) fun _ => .ite (.pure _) <|
    .ite (.bind (keeps_passIf _) fun _ => .ite hentry (.bind (.fail _) fun _ => hentry)) hentry

end AllKeep

/-- All readers of nodes leave the fault as it is. -/
theorem allKeep (fuel : Nat) : AllKeep fuel := by
  induction fuel with
  | zero => exact allKeep_zero
  | succ fuel ih =>
      exact ⟨ih.readNode, ih.readBlockItems, ih.readHangingItems, ih.readBlockEntries,
        ih.readFlowItems, ih.readFlowPair, ih.readFlowEntries⟩

/-! ## Documents -/

theorem keeps_readDirectives (hasVersion : Bool) (fuel : Nat) :
    Keeps (readDirectives hasVersion fuel) := by
  induction fuel generalizing hasVersion with
  | zero => exact .pure _
  | succ fuel ih =>
      refine .bind keeps_peek fun token? => ?_
      split
      · refine .bind keeps_pass fun _ => ?_
        split
        · exact .ite (.bind (.fail _) fun _ => .ite (.bind (.fail _) fun _ => ih _) (ih _))
            (.ite (.bind (.fail _) fun _ => ih _) (ih _))
        · exact .bind .get fun _ => .ite
            (.bind (.fail _) fun _ => .bind (.change fun _ => rfl) fun _ => ih _)
            (.bind (.change fun _ => rfl) fun _ => ih _)
        · exact ih _
      · exact .pure _

theorem keeps_readAnnouncement (fuel : Nat) : Keeps (readAnnouncement fuel) :=
  .bind (.change fun _ => rfl) fun _ => .bind (keeps_readDirectives _ _) fun _ =>
    .bind (keeps_passIf _) fun _ => .ite (.change fun _ => rfl)
      (.bind (.fail _) fun _ => .change fun _ => rfl)

theorem keeps_readAnnounced (fuel : Nat) : Keeps (readAnnounced fuel) := by
  refine .bind (keeps_readAnnouncement _) fun _ => .bind keeps_peek fun token? => ?_
  split
  · exact keeps_addNode _
  · exact keeps_addNode _
  · exact keeps_addNode _
  · exact keeps_addNode _
  · exact (allKeep fuel).node _ _

theorem keeps_passDocumentEnds (fuel : Nat) : Keeps (passDocumentEnds fuel) := by
  induction fuel with
  | zero => exact .pure _
  | succ fuel ih => exact .bind (keeps_passIf _) fun _ => .ite ih (.pure _)

/-- The end of the document is seen only where no fault is in front of it. -/
theorem fault_eq_none_of_peek {r r' : Reader} (h : peek.run r = .ok (none, r')) :
    r.fault = none := by
  obtain ⟨⟨s, t⟩, hget, h⟩ := bind_eq_ok ((StateT.run_bind ..).symm.trans h)
  obtain ⟨rfl, rfl⟩ := Prod.mk.inj (Except.ok.inj hget)
  cases htokens : r.tokens with
  | cons token rest =>
      simp only [htokens] at h
      cases h
  | nil =>
      cases hfault : r.fault with
      | none => rfl
      | some fault =>
          simp only [htokens, hfault] at h
          cases h

/-- Behind the root, a document is at its end only where no fault is. -/
theorem fault_eq_none_of_end {fuel : Nat} {root : NodeId} {r r' : Reader} {root? : Option NodeId}
    (h : (do
      passDocumentEnds fuel
      match ← peek with
      | none => return some root
      | some _ =>
        readAnnouncement fuel
        fail .secondDocument : Reading (Option NodeId)).run r = .ok (root?, r')) :
          r.fault = none := by
  obtain ⟨⟨_, s⟩, hends, h⟩ := bind_eq_ok ((StateT.run_bind ..).symm.trans h)
  obtain ⟨⟨token?, t⟩, hpeek, h⟩ := bind_eq_ok ((StateT.run_bind ..).symm.trans h)
  rw [← keeps_passDocumentEnds fuel r _ s hends]
  cases token? with
  | none => exact fault_eq_none_of_peek hpeek
  | some token =>
      obtain ⟨⟨_, u⟩, -, h⟩ := bind_eq_ok ((StateT.run_bind ..).symm.trans h)
      cases h

/-- In front of the root, too. -/
theorem fault_eq_none_of_root {fuel : Nat} {read : Reading NodeId}
    (hread : Keeps read) {r r' : Reader}
    {root? : Option NodeId} (h : (do
      let root ← read
      passDocumentEnds fuel
      match ← peek with
      | none => return some root
      | some _ =>
        readAnnouncement fuel
        fail .secondDocument : Reading (Option NodeId)).run r = .ok (root?, r')) :
          r.fault = none := by
  obtain ⟨⟨root, s⟩, hroot, h⟩ := bind_eq_ok ((StateT.run_bind ..).symm.trans h)
  rw [← hread r root s hroot]
  exact fault_eq_none_of_end h

/-- A document is read only where no fault ends its tokens. -/
theorem fault_eq_none_of_readRoot {fuel : Nat} {r r' : Reader} {root? : Option NodeId}
    (h : (readRoot fuel).run r = .ok (root?, r')) : r.fault = none := by
  obtain ⟨⟨token?, s⟩, hpeek, h⟩ := bind_eq_ok ((StateT.run_bind ..).symm.trans h)
  cases token? with
  | none => exact fault_eq_none_of_peek hpeek
  | some token =>
      rw [← keeps_peek r _ s hpeek]
      simp only at h
      split at h
      · exact fault_eq_none_of_root (keeps_readAnnounced fuel) h
      · exact fault_eq_none_of_root (keeps_readAnnounced fuel) h
      · obtain ⟨⟨_, t⟩, hhandles, h⟩ := bind_eq_ok ((StateT.run_bind ..).symm.trans h)
        obtain ⟨-, rfl⟩ := Prod.mk.inj (Except.ok.inj hhandles)
        exact fault_eq_none_of_root (r := { s with handles := standardHandles })
          ((allKeep fuel).node true false) h

/-- A text whose tokens end in a fault cannot be read. -/
theorem exists_read_eq_error {text : List Char} {fault : Fault}
    (h : (Tokens.ofText text).fault = some fault) :
    ∃ reason, read (String.ofList text) = .error reason := by
  have hdocument : ∃ reason, (Tokens.ofText text).document? = .error reason := by
    cases hroot : (Tokens.ofText text).document? with
    | error reason => exact ⟨reason, rfl⟩
    | ok document? =>
        obtain ⟨⟨root?, r'⟩, hread, -⟩ := bind_eq_ok hroot
        have hnone := fault_eq_none_of_readRoot hread
        rw [show (Tokens.ofText text).fault = none from hnone] at h
        cases h
  obtain ⟨reason, hreason⟩ := hdocument
  refine ⟨reason, ?_⟩
  rw [read, String.toList_ofList, hreason]
  rfl

end PackageScaffold.Yaml
