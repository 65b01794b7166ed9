import Storyline.Proofs.Recording.Interleaving
import Storyline.Proofs.Recording.Sites

/-! Messages that wait, and messages that do not. A recorder lets messages wait in the channel until a scope opens
or closes. Whoever writes each message at once to the record that is open then comes to the same records, since
what waits is always put away before another record is open. -/

namespace Storyline

namespace Recorder

/-- What a recorder does that lets no message wait. -/
def takeAtOnce (r : Recorder) : Signal → Recorder
  | .direction d => d.apply r
  | .message m => r.modifyAt (·.take m) r.site

def afterAtOnce (r : Recorder) (signals : List Signal) : Recorder := signals.foldl takeAtOnce r

/-- The transcript of the records as they stand, whatever waits. -/
def standing (r : Recorder) (slots : Slots) : Transcript :=
  ⟨r.description, r.setup.map (·.resolve slots), r.stories.map (StoryDraft.resolve slots)⟩

variable {r : Recorder}

/-- To write at once is to let a message wait and to put it away next. -/
theorem takeAtOnce_flushed (h : r.channel.isOpen) (signal : Signal) :
    r.flushed.takeAtOnce signal = (r.take signal).flushed := by
  cases signal with
  | direction d =>
    calc
      d.apply r.flushed = d.apply r := r.apply_flushed d
      _ = (d.apply r).flushed := (r.flushed_apply d).symm
  | message m =>
    have hsend := r.flushed_send m h
    rw [← site_flushed] at hsend
    exact hsend.symm

theorem Sound.afterAtOnce_flushed (h : r.Sound) (signals : List Signal) :
    r.flushed.afterAtOnce signals = (r.after signals).flushed := by
  induction signals generalizing r with
  | nil => rfl
  | cons signal rest ih =>
    have hrest := ih (h.after [signal])
    change (r.flushed.takeAtOnce signal).afterAtOnce rest = _
    rw [takeAtOnce_flushed h.isOpen]
    exact hrest

theorem standing_flushed (r : Recorder) (slots : Slots) : r.flushed.standing slots = r.finish slots := by
  rw [finish_eq, standing, flushed, switch_description]
  rfl

end Recorder

/-- The finished record at a site tells what was sent to it, with what the slots hold in the end. -/
theorem Recorder.finish_account (topic : String) (signals : List Signal) (slots : Slots) {p : Site}
    (hp : p ≠ .scratch) :
    (((((new topic).after signals).finish slots).record? p).map Record.account).getD [] =
      (sentTo p (new topic) signals).map (Message.resolve slots) := by
  have hdraft := ledger_after_new topic signals hp
  rw [finish_record?, Option.map_map]
  calc
    _ = ((((new topic).after signals).ledger.record? p).getD {}).messages.map (Message.resolve slots) := by
      cases ((new topic).after signals).ledger.record? p with
      | none => rfl
      | some draft => exact draft.account_resolve slots
    _ = _ := by rw [hdraft, Draft.messages_absorb]

end Storyline
