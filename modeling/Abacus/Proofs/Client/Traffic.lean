import Mathlib
import Abacus.Client.Batch

/-!
# What the calls of a client leave behind

Whatever a client does, a session only gets longer by connections, calls and pauses, and its files
stay as they are but for the file of results that a batch is written to.

* `Session.Event.IsTraffic`, `Session.Follows`: a session that comes out of another by calls;
* `Session.follows_exchange`, `Client.follows_connect`, `Client.follows_send`: single calls;
* `Batch.follows_record`, `Batch.follows_run`: the lines of a batch;
* `Client.sendFile_cases`: a batch from a file to a file, and how it ends.
-/

namespace Abacus

namespace Session

/-- Events that the calls of a client are made of: connections, calls and pauses. -/
def Event.IsTraffic : Event → Prop
  | .connect _ => True
  | .call _ _ => True
  | .sleep _ => True
  | _ => False

/-- The events of a session with traffic after them. -/
def IsLonger (s s' : Session) : Prop :=
  ∃ es, s'.events = s.events ++ es ∧ ∀ e ∈ es, Event.IsTraffic e

/-- A session after calls of a client: more traffic and the same files. -/
structure Follows (s s' : Session) : Prop where
  files_eq : s'.files = s.files
  isLonger : s.IsLonger s'

variable {s s' s'' : Session}

theorem IsLonger.trans (h : s.IsLonger s') (h' : s'.IsLonger s'') : s.IsLonger s'' := by
  obtain ⟨es, hes, htraffic⟩ := h
  obtain ⟨es', hes', htraffic'⟩ := h'
  refine ⟨es ++ es', ?_, ?_⟩
  · rw [hes', hes, List.append_assoc]
  · intro e he
    rcases List.mem_append.1 he with he | he
    · exact htraffic e he
    · exact htraffic' e he

theorem Follows.refl (s : Session) : s.Follows s := ⟨rfl, [], by simp, by simp⟩

theorem Follows.trans (h : s.Follows s') (h' : s'.Follows s'') : s.Follows s'' :=
  ⟨h'.files_eq.trans h.files_eq, h.isLonger.trans h'.isLonger⟩

theorem follows_note (s : Session) {e : Event} (he : e.IsTraffic) : s.Follows (s.note e) :=
  ⟨rfl, [e], rfl, by simpa using he⟩

theorem follows_connection (s : Session) (address : Text) :
    s.Follows (s.note (.connect address)) :=
  s.follows_note trivial

theorem follows_record (s : Session) (records : List Log.Record) :
    s.Follows (s.record records) :=
  ⟨rfl, [], by simp [record], by simp⟩

theorem follows_exchange (s : Session) (c : Call) : s.Follows (s.exchange c).2 := by
  have hnote : ∀ reached, s.Follows (s.note (.call c reached)) := fun _ => s.follows_note trivial
  unfold exchange
  split
  · exact ⟨rfl, (hnote false).isLonger⟩
  · split
    · exact (hnote true).trans (follows_record _ _)
    · exact hnote false
    · exact ⟨rfl, (hnote true).isLonger⟩

end Session

open Session (Follows)

variable {s s' : Session}

namespace Client

theorem follows_connect {c : Client} {url : Url} (h : c.connect s = .ok (url, s')) :
    s.Follows s' := by
  unfold connect at h
  split at h
  · cases h
  · cases h
    exact s.follows_connection _

theorem follows_send (call : Call) (s : Session) : s.Follows (send call s).2 := by
  have hexchange := s.follows_exchange call
  unfold send
  split
  · next heq => rwa [heq] at hexchange
  · next heq => rwa [heq] at hexchange

end Client

namespace Batch

theorem follows_record (url : Url) (number : ℕ) (line : Text) (s : Session) :
    s.Follows (record url number line s).2 := by
  unfold record
  split
  · exact Client.follows_send _ s
  · exact s.follows_record _

/-- **The lines of a batch leave traffic behind**, however far they get. -/
theorem follows_run (url : Url) (number : ℕ) (lines : List Text) (s : Session) :
    s.Follows (run url number lines s).session := by
  induction lines generalizing number s with
  | nil => exact .refl s
  | cons line lines ih =>
    have hrecord := follows_record url number line s
    rw [run]
    split
    · next heq => rwa [heq] at hrecord
    · next heq =>
      rw [heq] at hrecord
      exact hrecord.trans (ih _ _)

end Batch

namespace Client

/-- Lines that are sent: their records are written, whatever became of them. -/
theorem sendLines_cases (url : Url) (lines : List Text) (output : Path) (place : Place)
    (s : Session) :
    s.IsLonger (sendLines url lines output place s).2 ∧
      ∃ t, (sendLines url lines output place s).2.files = s.files.write place t := by
  have hrun := Batch.follows_run url 1 lines s
  unfold sendLines
  dsimp only
  split
  · exact ⟨hrun.isLonger, _, congrArg (Files.write · _ _) hrun.files_eq⟩
  · exact ⟨hrun.isLonger.trans (Session.follows_record _ _).isLonger, _,
      congrArg (Files.write · _ _) hrun.files_eq⟩

/-- **A batch from a file to a file leaves traffic behind.** Either it fails and the files stay as
they are, or records are written to the place of the output. -/
theorem sendFile_cases (c : Client) (input output : Path) (s : Session) :
    s.IsLonger (c.sendFile input output s).2 ∧
      (((∃ e, (c.sendFile input output s).1 = .error e) ∧
          (c.sendFile input output s).2.files = s.files) ∨
        ∃ place t, s.files.target output = .ok place ∧
          (c.sendFile input output s).2.files = s.files.write place t) := by
  have hrefl := (Follows.refl s).isLonger
  unfold sendFile
  split
  · exact ⟨hrefl, .inl ⟨⟨_, rfl⟩, rfl⟩⟩
  · split
    · exact ⟨hrefl, .inl ⟨⟨_, rfl⟩, rfl⟩⟩
    · next hconnect =>
      have hfollows := follows_connect hconnect
      split
      · exact ⟨hfollows.isLonger, .inl ⟨⟨_, rfl⟩, hfollows.files_eq⟩⟩
      · next htarget =>
        obtain ⟨hlonger, t, ht⟩ := sendLines_cases ‹Url› _ output ‹Place› ‹Session›
        rw [hfollows.files_eq] at ht htarget
        exact ⟨hfollows.isLonger.trans hlonger, .inr ⟨_, t, htarget, ht⟩⟩

end Client

end Abacus
