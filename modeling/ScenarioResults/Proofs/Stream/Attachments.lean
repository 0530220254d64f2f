import ScenarioResults.Proofs.Attachment
import ScenarioResults.Proofs.Stream.Arrivals
import ScenarioResults.Proofs.Stream.Cargo

/-!
# What becomes of attachments

A builder with a new shelf numbers the payloads that it accepts in the order in which they come, and
the reference that a scenario or the open background got for a payload leads to this payload from
then on, whatever the builder is fed later: `shelved_turns`. Each reference is in one place: in the
tree, with the open background, or with a background that was given up.

## Shape of the proof

Where references go is known of every `Cargo`. Here it is only read off a turn which payload it puts
on the shelf and which reference it brings (`stored_process`, `brought_process`), and both are
numbered alike. A shelf that only grows gives back under a reference what it gave before, as numbered
references differ.
-/

namespace ScenarioResults

/-- The payload of the turn's event, if it is accepted and has one. -/
def Turn.payload? {σ : Type} [AttachmentStore σ] (t : Turn σ) : Option (String × Bytes) :=
  t.accepted?.bind Stream.offer?

namespace Stream

variable {b : Builder Shelf} {e : Event}

/-! ## One turn -/

/-- A turn puts its payload on the shelf, under the next number. -/
theorem stored_process (hb : b.Anchored) (e : Event) :
    (b.process e).builder.store.stored =
      b.store.stored ++
        Shelf.numbered b.store.stored.length (Turn.payload? (⟨b, e⟩ : Turn Shelf)).toList := by
  cases herror : (b.process e).error with
  | none =>
      rw [store_receive (Builder.accepts_process herror), Turn.payload?,
        Turn.accepted?_of_accepted herror]
      cases e with
      | embedding mimeType data =>
          rw [Option.bind_some, offer?, Option.toList_some, Shelf.numbered, Shelf.numbered,
            ← Shelf.filename_eq]
          rfl
      | _ => simp [receive, offer?, Shelf.numbered]
  | some error =>
      rw [Turn.payload?, Turn.accepted?_of_refused herror]
      have hrefuses := Builder.refuses_process hb herror
      generalize (b.process e).builder = b' at hrefuses
      -- a shelf takes every payload, so no event is refused for its payload
      cases hrefuses with
      | attachment _ hoffer => cases hoffer
      | misfit | outOfOrder | nested | unresolved | duplicateStep | duplicateBinding | malformed =>
          simp [Shelf.numbered]

/-- The reference that a turn brings is that of its payload. -/
theorem brought_process (b : Builder Shelf) (e : Event) :
    (Turn.item? (⟨b, e⟩ : Turn Shelf)).toList.flatMap Cargo.attachments.item =
      (Shelf.numbered b.store.stored.length (Turn.payload? (⟨b, e⟩ : Turn Shelf)).toList).map
        Attachment.ref := by
  cases herror : (b.process e).error with
  | none =>
      rw [Turn.item?, Turn.payload?, Turn.accepted?_of_accepted herror]
      cases e with
      | result =>
          cases hpending : b.pending <;>
            simp [item?, hpending, Cargo.attachments, Item.attachment?, offer?, Shelf.numbered]
      | embedding mimeType data =>
          rw [Option.bind_some, Option.bind_some, offer?, Option.toList_some, Shelf.numbered,
            Shelf.numbered, ← Shelf.filename_eq]
          rfl
      | _ => rfl
  | some error =>
      rw [Turn.item?, Turn.payload?, Turn.accepted?_of_refused herror]
      rfl

/-! ## Runs -/

/-- The payload of the first turn of a run comes before those of the others. -/
theorem payloads_cons (b : Builder Shelf) (e : Event) (events : List Event) :
    (b.turns (e :: events)).filterMap Turn.payload? =
      (Turn.payload? (⟨b, e⟩ : Turn Shelf)).toList ++
        ((b.process e).builder.turns events).filterMap Turn.payload? := by
  rw [Builder.turns, List.filterMap_cons]
  cases Turn.payload? (⟨b, e⟩ : Turn Shelf) <;> simp

/-- The shelf grows by the payload of a turn, if it has one. -/
theorem length_stored_process (hb : b.Anchored) (e : Event) :
    (b.process e).builder.store.stored.length =
      b.store.stored.length + (Turn.payload? (⟨b, e⟩ : Turn Shelf)).toList.length := by
  rw [stored_process hb e, List.length_append, Shelf.length_numbered]

/-- A run puts its payloads on the shelf, under the next numbers. -/
theorem stored_feed (hb : b.Anchored) (events : List Event) :
    (b.feed events).store.stored =
      b.store.stored ++
        Shelf.numbered b.store.stored.length ((b.turns events).filterMap Turn.payload?) := by
  induction events generalizing b with
  | nil => simp [Builder.turns, Builder.feed, Shelf.numbered]
  | cons e events ih =>
      have hrest := ih (Builder.anchored_process hb e)
      rw [length_stored_process hb e, stored_process hb e, List.append_assoc,
        ← Shelf.numbered_append, ← payloads_cons] at hrest
      exact hrest

/-- The references that a run brings are those of its payloads. -/
theorem brought_feed (hb : b.Anchored) (events : List Event) :
    ((b.turns events).filterMap Turn.item?).flatMap Cargo.attachments.item =
      (Shelf.numbered b.store.stored.length
        ((b.turns events).filterMap Turn.payload?)).map Attachment.ref := by
  induction events generalizing b with
  | nil => rfl
  | cons e events ih =>
      rw [items_cons, brought_process, ih (Builder.anchored_process hb e),
        length_stored_process hb e, ← List.map_append, ← Shelf.numbered_append, ← payloads_cons]

/-! ## From the start -/

/-- What becomes of the attachments that the turns bring to a builder that started afresh. The
accepted payloads are on the shelf, the `i`-th under the number `i`, and the references are those
that the accepted events brought, which differ from each other. A reference in the tree or with the
open background is that of an accepted payload, and leads to it whatever is fed to the builder
later. References stand in the order in which they came, and each one is in the tree, with the open
background or with a background that was given up, and nowhere twice. -/
structure Shelved (ts : List (Turn Shelf)) (b : Builder Shelf) : Prop where
  stored : b.store.stored = Shelf.numbered 0 (ts.filterMap Turn.payload?)
  brought : (ts.filterMap Turn.item?).filterMap Item.attachment? =
    b.store.stored.map Attachment.ref
  distinct : (b.store.stored.map Attachment.filename).Nodup
  kept : ∀ r ∈ Cargo.attachments.inTree b.tree ++ Cargo.attachments.inOpen b.opened,
    ∃ i mimeType data, (ts.filterMap Turn.payload?)[i]? = some (mimeType, data) ∧
      r = { mimeType, filename := Shelf.reference (i + 1) mimeType } ∧
      ∀ later, (b.feed later).store.get? r.filename =
        some { filename := r.filename, mimeType, data }
  inOrder : InOrder Cargo.attachments (b.store.stored.map Attachment.ref) b
  once : (Cargo.attachments.inTree b.tree ++ Cargo.attachments.inOpen b.opened ++
      (backgroundWait.endings none ts).flatMap Cargo.attachments.lost).Perm
    (b.store.stored.map Attachment.ref)

/-- From the start the shelf holds the payloads of the run, numbered from one. -/
theorem stored_new (settings : Settings) (events : List Event) :
    ((Builder.new settings ({} : Shelf)).feed events).store.stored =
      Shelf.numbered 0
        (((Builder.new settings ({} : Shelf)).turns events).filterMap Turn.payload?) :=
  stored_feed (Builder.anchored_new settings ({} : Shelf)) events

/-- The references that a run brings from the start are those on the shelf. -/
theorem brought_new (settings : Settings) (events : List Event) :
    (((Builder.new settings ({} : Shelf)).turns events).filterMap Turn.item?).flatMap
        Cargo.attachments.item =
      ((Builder.new settings ({} : Shelf)).feed events).store.stored.map Attachment.ref :=
  (brought_feed (Builder.anchored_new settings ({} : Shelf)) events).trans
    (congrArg _ (stored_new settings events).symm)

/-- What is on the shelf is found under its reference, whatever is fed to the builder later. -/
theorem get?_feed (settings : Settings) (events later : List Event) {a : Attachment}
    (ha : a ∈ ((Builder.new settings ({} : Shelf)).feed events).store.stored) :
    (((Builder.new settings ({} : Shelf)).feed events).feed later).store.get? a.filename =
      some a := by
  have hanchored := ((Builder.Running.new settings ({} : Shelf)).feed events).anchored
  have hfeed : ((Builder.new settings ({} : Shelf)).feed events).feed later =
      (Builder.new settings ({} : Shelf)).feed (events ++ later) := List.foldl_append.symm
  refine Shelf.get?_of_nodup ?_ ?_
  · rw [hfeed, stored_new]
    exact Shelf.nodup_numbered _ _
  · rw [stored_feed hanchored later]
    exact List.mem_append_left _ ha

/-- A reference on the shelf is that of a payload that was accepted, and leads to it. -/
theorem payload_of_mem_shelf (settings : Settings) (events : List Event) {r : AttachmentRef}
    (hr : r ∈ ((Builder.new settings ({} : Shelf)).feed events).store.stored.map
      Attachment.ref) :
    ∃ i mimeType data,
      (((Builder.new settings ({} : Shelf)).turns events).filterMap Turn.payload?)[i]? =
        some (mimeType, data) ∧
      r = { mimeType, filename := Shelf.reference (i + 1) mimeType } ∧
      ∀ later,
        (((Builder.new settings ({} : Shelf)).feed events).feed later).store.get? r.filename =
          some { filename := r.filename, mimeType, data } := by
  obtain ⟨a, ha, rfl⟩ := List.mem_map.mp hr
  obtain ⟨i, hi⟩ := List.mem_iff_getElem?.mp ha
  rw [stored_new, Shelf.getElem?_numbered, Option.map_eq_some_iff] at hi
  obtain ⟨⟨mimeType, data⟩, hpayload, rfl⟩ := hi
  rw [Nat.zero_add] at ha ⊢
  exact ⟨i, mimeType, data, hpayload, rfl, fun later => get?_feed settings events later ha⟩

/-- References stand in the order of the shelf. -/
theorem inOrder_shelf (settings : Settings) (events : List Event) :
    InOrder Cargo.attachments
      (((Builder.new settings ({} : Shelf)).feed events).store.stored.map Attachment.ref)
      ((Builder.new settings ({} : Shelf)).feed events) := by
  rw [← brought_new]
  exact (inOrder_new Cargo.attachments settings ({} : Shelf)).feed
    (atEnd_new settings ({} : Shelf)) events

/-- A builder with a new shelf keeps each payload that it accepts under a reference of its own, which
is in one place and leads to the payload ever after. -/
theorem shelved_turns (settings : Settings) (events : List Event) :
    Shelved ((Builder.new settings ({} : Shelf)).turns events)
      ((Builder.new settings ({} : Shelf)).feed events) where
  stored := stored_new settings events
  brought := by
    rw [List.filterMap_eq_flatMap_toList]
    exact brought_new settings events
  distinct := stored_new settings events ▸ Shelf.nodup_numbered _ _
  kept _ hr := payload_of_mem_shelf settings events ((inOrder_shelf settings events).mem hr)
  inOrder := inOrder_shelf settings events
  once := by
    rw [← brought_new]
    exact carried_feed Cargo.attachments (atEnd_new settings ({} : Shelf)) events

/-- An attachment goes with a background that is given up, and still keeps its number. -/
example :
    let b := (Builder.new {} ({} : Shelf)).feed
      [.feature {}, .background {}, .embedding "image/png" [1], .feature {}, .scenario {},
        .embedding "TEXT/plain; charset=utf-8" [2]]
    Cargo.attachments.inTree b.tree =
        [{ mimeType := "TEXT/plain; charset=utf-8", filename := "embed_2.txt" }] ∧
      b.store.get? "embed_1.png" =
        some { filename := "embed_1.png", mimeType := "image/png", data := [1] } := by
  decide +kernel

end Stream

end ScenarioResults
