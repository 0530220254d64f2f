import ScenarioResults.Proofs.Builder.Resuming
import ScenarioResults.Proofs.Report.Building
import ScenarioResults.Report.Files

/-!
# Batches that fail

A batch of documents stops at the first that fails. `feedDocuments_of_failed` says what it leaves: the
documents before are in the tree as a batch of them alone puts them there. A document that cannot be
read or replayed, or whose text is no report, adds nothing and leaves the builder as it was. One that
is refused on the way adds what a builder of its own makes of the events before the refused one.

## Shape of the proof

`stops_of_failed` splits the batch in front of the document that fails. The documents before were
read completely, so the builder is idle there (`idle_feedDocuments`) and with that a fresh builder
behind its tree. What comes of the last document is then a matter of one run of events.
-/

namespace ScenarioResults

namespace Builder

variable {σ : Type} {b : Builder σ}

/-- An idle builder is a new one behind its tree. -/
theorem eq_behind_of_idle (hopened : b.opened = .idle) (hpending : b.pending = none) :
    b = (new b.settings b.store).behind b.tree := by
  rw [behind_new]
  cases b
  cases hopened
  cases hpending
  rfl

variable [AttachmentStore σ]

/-- A run that is refused is accepted up to an event, at which it stops. -/
theorem processAll_of_refused {es : List Event} (h : (b.processAll es).error ≠ none) :
    ∃ accepted e rest, es = accepted ++ e :: rest ∧ (b.processAll accepted).error = none ∧
      ((b.processAll accepted).builder.process e).error ≠ none ∧
      (b.processAll es).builder = ((b.processAll accepted).builder.process e).builder := by
  induction es generalizing b with
  | nil => exact absurd rfl h
  | cons e es ih =>
      by_cases hfirst : (b.process e).error = none
      · have hrest : ((b.process e).builder.processAll es).error ≠ none := fun hrest =>
          h (error_andThen.mpr ⟨hfirst, hrest⟩)
        obtain ⟨accepted, e', rest, rfl, haccepted, hrefused, hbuilder⟩ := ih hrest
        have hrun : (b.processAll (e :: accepted)).builder =
            ((b.process e).builder.processAll accepted).builder := builder_andThen hfirst
        refine ⟨e :: accepted, e', rest, rfl, error_andThen.mpr ⟨hfirst, haccepted⟩, ?_, ?_⟩
        · rwa [hrun]
        · rw [hrun, ← hbuilder]
          exact builder_andThen hfirst
      · exact ⟨[], e, es, rfl, rfl, hfirst, builder_andThen_of_refused hfirst⟩

end Builder

namespace Report

/-- Nothing can be built from the document: it cannot be read or replayed, or its text is no
report. -/
def Library.Unusable (l : Library) (path : String) : Prop :=
  (∃ error, l.events path = .error error) ∨
    ∃ text fault, l.contents path = .ok text ∧ Text.isBlankText text = false ∧
      l.parse text = .error fault

variable {σ : Type} [AttachmentStore σ] {l : Library} {b : Builder σ} {path : String}
  {paths : List String} {error : ReadError}

/-- A text that is no report is told by a single event. -/
theorem Library.events_of_unusable (h : l.Unusable path) :
    (∃ error, l.events path = .error error) ∨ ∃ fault, l.events path = .ok [.syntaxError fault] := by
  refine h.imp_right fun ⟨text, fault, htext, hblank, hparse⟩ => ?_
  refine ⟨syntaxFault path fault, ?_⟩
  simp [Library.events, htext, readWith, hblank, hparse, Except.mapError]

/-- The events of any other document are those of a report. -/
theorem Library.events_of_usable (h : ¬ l.Unusable path) :
    ∃ features, l.events path = .ok (stream l.decode path features) := by
  unfold Library.Unusable at h
  push Not at h
  obtain ⟨hevents, hparse⟩ := h
  unfold Library.events at hevents ⊢
  cases htext : l.contents path with
  | error fault => simp [htext] at hevents
  | ok text =>
      cases hblank : Text.isBlankText text with
      | true => exact ⟨[], by simp [readWith, hblank, Except.mapError, stream]⟩
      | false =>
          cases hfeatures : l.parse text with
          | error fault => exact absurd hfeatures (hparse text fault htext hblank)
          | ok features =>
              refine ⟨features, ?_⟩
              simp only [htext, readWith, hblank, hfeatures] at hevents ⊢
              cases hreplay : Report.events l.decode path features with
              | error fault => simp [hreplay, Except.mapError] at hevents
              | ok es =>
                  rw [eq_stream_of_events hreplay]
                  rfl

/-! ## One document -/

/-- A document from which nothing can be built leaves the builder as it was. -/
theorem builder_feedDocument_of_unusable (h : l.Unusable path) :
    (feedDocument l b path).builder = b := by
  unfold feedDocument
  rcases l.events_of_unusable h with ⟨error, hevents⟩ | ⟨fault, hevents⟩ <;> rw [hevents]
  rfl

/-- A single document counts when it was read completely. -/
theorem read_feedDocument :
    (feedDocument l b path).read = if (feedDocument l b path).error.isNone then 1 else 0 := by
  unfold feedDocument
  cases l.events path <;> simp

/-- Behind a document that was read completely an idle builder is idle again. -/
theorem idle_feedDocument (hopened : b.opened = .idle) (hpending : b.pending = none)
    (h : (feedDocument l b path).error = none) :
    (feedDocument l b path).builder.opened = .idle ∧
      (feedDocument l b path).builder.pending = none := by
  -- an unusable document leaves the builder alone, and a replay ends its last document
  by_cases husable : l.Unusable path
  · rw [builder_feedDocument_of_unusable husable]
    exact ⟨hopened, hpending⟩
  · obtain ⟨features, hevents⟩ := l.events_of_usable husable
    unfold feedDocument at h ⊢
    rw [hevents] at h ⊢
    exact idle_processAll_stream hopened hpending (Option.map_eq_none_iff.mp h)

/-! ## The batch -/

/-- A document that fails is the last of its batch. -/
theorem feedDocuments_cons_of_failed (h : (feedDocument l b path).error = some error) :
    feedDocuments l b (path :: paths) = feedDocument l b path := by
  rw [feedDocuments]
  simp only [h]

/-- The batch goes on behind a document that was read completely. -/
theorem feedDocuments_cons_of_completed (h : (feedDocument l b path).error = none)
    (paths : List String) :
    let rest := feedDocuments l (feedDocument l b path).builder paths
    (feedDocuments l b (path :: paths)).builder = rest.builder ∧
      (feedDocuments l b (path :: paths)).error = rest.error ∧
      (feedDocuments l b (path :: paths)).read = rest.read + 1 := by
  have hread : (feedDocument l b path).read = 1 := by rw [read_feedDocument, h]; rfl
  rw [feedDocuments]
  simp only [h, hread, Nat.add_comm 1, and_self]

/-- Behind a batch that was read completely an idle builder is idle again. -/
theorem idle_feedDocuments (hopened : b.opened = .idle) (hpending : b.pending = none)
    (h : (feedDocuments l b paths).error = none) :
    (feedDocuments l b paths).builder.opened = .idle ∧
      (feedDocuments l b paths).builder.pending = none := by
  induction paths generalizing b with
  | nil => exact ⟨hopened, hpending⟩
  | cons path paths ih =>
      cases hone : (feedDocument l b path).error with
      | some error =>
          rw [feedDocuments_cons_of_failed hone, hone] at h
          cases h
      | none =>
          obtain ⟨hbuilder, herror, -⟩ := feedDocuments_cons_of_completed hone paths
          obtain ⟨hopened', hpending'⟩ := idle_feedDocument hopened hpending hone
          rw [hbuilder]
          exact ih hopened' hpending' (herror.symm.trans h)

/-- A batch that fails has read the documents before completely and fails as the next one does. -/
theorem stops_of_failed (h : (feedDocuments l b paths).error = some error) :
    let failed := feedDocuments l b paths
    let completed := feedDocuments l b (paths.take failed.read)
    completed.error = none ∧ completed.read = failed.read ∧
      ∃ path, paths[failed.read]? = some path ∧
        (feedDocument l completed.builder path).error = some error ∧
        failed.builder = (feedDocument l completed.builder path).builder := by
  induction paths generalizing b with
  | nil => cases h
  | cons path paths ih =>
      cases hone : (feedDocument l b path).error with
      | some first =>
          have hread : (feedDocument l b path).read = 0 := by rw [read_feedDocument, hone]; rfl
          rw [feedDocuments_cons_of_failed hone] at h ⊢
          dsimp only
          rw [hread]
          exact ⟨rfl, rfl, path, rfl, h, rfl⟩
      | none =>
          obtain ⟨hbuilder, herror, hread⟩ := feedDocuments_cons_of_completed hone paths
          obtain ⟨hcompleted, hcount, last, hlast, hfails, hleft⟩ := ih (herror.symm.trans h)
          dsimp only
          rw [hread, List.take_succ_cons, List.getElem?_cons_succ, hbuilder]
          obtain ⟨hbuilder', herror', hread'⟩ :=
            feedDocuments_cons_of_completed hone (paths.take _)
          rw [hbuilder', herror', hread']
          exact ⟨hcompleted, congrArg (· + 1) hcount, last, hlast, hfails, hleft⟩

/-! ## What a batch leaves that fails -/

/-- What a failed document leaves of a builder that had completed the documents before. The features
of those are in front, as they were. A document from which nothing can be built leaves the builder
as it was. Any other one is refused at some event, and what it adds is what a new builder with the
same settings and store makes of the events before. -/
structure Interrupts (l : Library) (path : String) (completed failed : Builder σ) : Prop where
  features : completed.tree.features.values <+: failed.tree.features.values
  unusable : l.Unusable path → failed = completed
  refused : ¬ l.Unusable path →
    ∃ accepted e rest, l.events path = .ok (accepted ++ e :: rest) ∧
      (completed.processAll accepted).error = none ∧
      ((completed.processAll accepted).builder.process e).error ≠ none ∧
      let own := (Builder.new completed.settings completed.store).processAll accepted
      own.error = none ∧ failed.tree = completed.tree.append own.builder.tree ∧
        failed.tree.content = completed.tree.content ++ own.builder.tree.content

/-- What a failed document leaves of an idle builder. -/
theorem interrupts_feedDocument (hopened : b.opened = .idle) (hpending : b.pending = none)
    (h : (feedDocument l b path).error = some error) :
    Interrupts l path b (feedDocument l b path).builder := by
  by_cases husable : l.Unusable path
  · rw [builder_feedDocument_of_unusable husable]
    exact ⟨List.prefix_rfl, fun _ => rfl, fun husable' => absurd husable husable'⟩
  · obtain ⟨features, hevents⟩ := l.events_of_usable husable
    unfold feedDocument at h ⊢
    rw [hevents] at h ⊢
    dsimp only at h ⊢
    have hrefused : (b.processAll (stream l.decode path features)).error ≠ none := fun hnone => by
      rw [hnone] at h
      cases h
    obtain ⟨accepted, e, rest, hsplit, haccepted, hlast, hbuilder⟩ :=
      Builder.processAll_of_refused hrefused
    -- the events before the refused one are accepted by a new builder too
    have hbehind := Builder.eq_behind_of_idle hopened hpending
    have hown : ((Builder.new b.settings b.store).processAll accepted).error = none := by
      rw [hbehind] at haccepted
      exact Builder.processAll_of_behind haccepted
    have htree : (b.processAll (stream l.decode path features)).builder.tree =
        b.tree.append ((Builder.new b.settings b.store).processAll accepted).builder.tree :=
      calc (b.processAll (stream l.decode path features)).builder.tree
          = (b.processAll accepted).builder.tree := by
            rw [hbuilder, (Builder.spares_process_of_refused hlast).tree]
        _ = (((Builder.new b.settings b.store).behind b.tree).processAll accepted).builder.tree := by
            rw [← hbehind]
        _ = _ := by
            rw [(Builder.processAll_behind hown b.tree).2]
            rfl
    refine ⟨?_, fun husable' => absurd husable' husable, fun _ => ?_⟩
    · rw [htree, Tree.append, Name.Family.values_adopt]
      exact List.prefix_append _ _
    · refine ⟨accepted, e, rest, hevents.trans (congrArg _ hsplit), haccepted, hlast, hown, htree, ?_⟩
      rw [htree, Tree.content_append]

/-- An idle builder is fed documents of which one fails. The documents before were read completely
and leave it idle, as a batch of them alone does, and `Interrupts` says what the failed one leaves of
that. -/
theorem feedDocuments_of_failed (hb : b.Reachable) (hidle : b.context = .idle)
    (h : (feedDocuments l b paths).error = some error) :
    let failed := feedDocuments l b paths
    let completed := feedDocuments l b (paths.take failed.read)
    completed.error = none ∧ completed.read = failed.read ∧ completed.builder.context = .idle ∧
      ∃ path, paths[failed.read]? = some path ∧
        (feedDocument l completed.builder path).error = some error ∧
        Interrupts l path completed.builder failed.builder := by
  intro failed completed
  have hopened := Builder.opened_of_idle hidle
  obtain ⟨herror, hread, path, hpath, hfails, hleft⟩ := stops_of_failed h
  obtain ⟨hopened', hpending'⟩ :=
    idle_feedDocuments hopened (hb.pending_of_idle hopened) herror
  refine ⟨herror, hread, ?_, path, hpath, hfails, ?_⟩
  · rw [Builder.context, hopened']
    rfl
  · rw [hleft]
    exact interrupts_feedDocument hopened' hpending' hfails

/-- A document comes behind another one. It has two backgrounds in a row, of which the second is
refused, it is no report at all, or a payload behind a valid feature cannot be decoded. -/
theorem feedDocuments_of_failed_midway :
    let l : Library :=
      { contents := Except.ok
        parse := fun text =>
          if text = "a" then .ok [{ name := "a" }]
          else if text = "b" then
            .ok [{ name := "b", elements := [{ kind := "background" }, { kind := "background" }] }]
          else if text = "d" then
            .ok [{ name := "d" },
              { elements := [{ before := [{ result := { status := "passed" }
                                            embeddings := [{ data := " ? " }] }] }] }]
          else .error { kind := .malformed, message := "expected value", line := 1, column := 1 }
        decode := fun text => .error ("Invalid symbol " ++ text) }
    let completed := (feedDocuments l (Builder.new {} ({} : Shelf)) ["a"]).builder
    let refused := feedDocuments l (Builder.new {} ({} : Shelf)) ["a", "b", "c"]
    let malformed := feedDocuments l (Builder.new {} ({} : Shelf)) ["a", "c", "b"]
    let garbled := feedDocuments l (Builder.new {} ({} : Shelf)) ["a", "d", "b"]
    refused.error = some (.build (.nestedBackground "")) ∧
      Interrupts l "b" completed refused.builder ∧
      refused.builder.tree.content =
        [{ uri := some "a", header := { name := "a" } },
          { uri := some "b", header := { name := "b" } }] ∧
      malformed.error =
        some (.build (.malformed
          { state := "syntax", event := "expected value", expected := ["feature"], uri := "c"
            line := 1, column := 1 })) ∧
      malformed.builder = completed ∧
      garbled.error =
        some (.build (.attachmentRefused "" (.undecodable "Invalid symbol ?"))) ∧
      garbled.builder = completed := by
  intro l completed refused malformed garbled
  have hrefused : refused.error = some (.build (.nestedBackground "")) := by decide +kernel
  have hmalformed : malformed.error =
      some (.build (.malformed
        { state := "syntax", event := "expected value", expected := ["feature"], uri := "c"
          line := 1, column := 1 })) := by decide +kernel
  have hgarbled : garbled.error =
      some (.build (.attachmentRefused "" (.undecodable "Invalid symbol ?"))) := by decide +kernel
  have hunusable : l.Unusable "c" := Or.inr ⟨"c", _, rfl, by decide +kernel, rfl⟩
  have hundecodable : l.Unusable "d" :=
    Or.inl ⟨.build (.attachmentRefused "" (.undecodable "Invalid symbol ?")), by decide +kernel⟩
  obtain ⟨-, -, -, path, hpath, -, hinterrupts⟩ :=
    feedDocuments_of_failed (l := l) (.new {} ({} : Shelf)) rfl hrefused
  obtain ⟨-, -, -, path', hpath', -, hinterrupts'⟩ :=
    feedDocuments_of_failed (l := l) (.new {} ({} : Shelf)) rfl hmalformed
  obtain ⟨-, -, -, path'', hpath'', -, hinterrupts''⟩ :=
    feedDocuments_of_failed (l := l) (.new {} ({} : Shelf)) rfl hgarbled
  have hread : refused.read = 1 := by decide +kernel
  have hread' : malformed.read = 1 := by decide +kernel
  have hread'' : garbled.read = 1 := by decide +kernel
  rw [hread] at hpath hinterrupts
  rw [hread'] at hpath' hinterrupts'
  rw [hread''] at hpath'' hinterrupts''
  cases hpath
  cases hpath'
  cases hpath''
  exact ⟨hrefused, hinterrupts, by decide +kernel, hmalformed, hinterrupts'.unusable hunusable,
    hgarbled, hinterrupts''.unusable hundecodable⟩

end Report

end ScenarioResults
