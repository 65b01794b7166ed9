import Storyline.Proofs.Calls.Isolated
import Storyline.Rehearsal.Script

/-! Scripts that touch only the driver that plays them. Such drivers keep to themselves: they are told apart
by their numbers and their scribes, and those are only written down and sent. -/

namespace Storyline.Rehearsal

variable {β : Type}

/-- Neither a slot nor a scribe is shared through the world, and results do not panic. -/
def Act.ownDriver : Act → Bool
  | .reserve _ | .fill .. | .drop _ | .later .. | .stash | .stashNote _ | .stashCall _ | .when .. => false
  | .failResults (.panic _) => false
  | _ => true

/-- Drivers that differ in nothing but their numbers and the scribes they hold. -/
structure Player.Alike (p p' : Player) : Prop where
  scribe : p.scribe.isSome = p'.scribe.isSome
  tally : p.tally = p'.tally
  later : p.later = p'.later
  waitFault : p.waitFault = p'.waitFault
  resultsFault : p.resultsFault = p'.resultsFault
  calm : ∀ panic, p.resultsFault ≠ some (.panic panic)

def World.Usable (w : World) : Prop := w.unmakable = none

def Turn.Alike (t t' : Turn) : Prop :=
  Matched Player.Alike World.Usable (t.player, t.world) (t'.player, t'.world)

namespace Acting

/-- What comes out the same for drivers that are alike. -/
def Steady (m : Acting β) : Prop := Likens Turn.Alike m m

theorem steady_change {f : Turn → Turn} (h : ∀ t t', t.Alike t' → (f t).Alike (f t')) : Steady (change f) :=
  fun t t' ht => ⟨rfl, h t t' ht⟩

theorem steady_bind {γ : Type} {m : Acting β} {k : β → Acting γ} (h : Steady m) (hk : ∀ x, Steady (k x)) :
    Steady (m >>= k) :=
  likens_bind h hk

theorem steady_log (text : String) : Steady (log text) := steady_change fun _ _ h => h

theorem steady_raise (i : Interruption) : Steady (raise i) := fun _ _ h => ⟨rfl, h⟩

theorem steady_raiseIf (i : Option Interruption) : Steady (raiseIf i) := by
  cases i with
  | none => exact fun _ _ h => ⟨rfl, h⟩
  | some i => exact steady_raise i

theorem steady_tally (f : Tally → Tally) : Steady (change (·.tally f)) :=
  steady_change fun _ _ ⟨hplayer, husable⟩ => ⟨{ hplayer with tally := congrArg f hplayer.tally }, husable⟩

theorem steady_deliver (slot : Nat) (d : Delivery) : Steady (deliver slot d) := by
  intro t t' h
  unfold deliver Turn.deliver
  cases d.action <;> exact ⟨rfl, h⟩

theorem steady_callThrough (d : Delivery) :
    Steady (do callThrough (← fun t => (.ok t.player.scribe, t)) d : Acting Unit) := by
  intro t t' h
  have hscribe := h.1.scribe
  simp only [bind_apply]
  unfold callThrough
  cases hs : t.player.scribe <;> cases hs' : t'.player.scribe <;> simp [hs, hs'] at hscribe
  · exact ⟨rfl, h⟩
  · unfold Turn.deliver
    cases d.action <;> exact ⟨rfl, h⟩

theorem steady_noteThrough (text : String) :
    Steady (do noteThrough (← fun t => (.ok t.player.scribe, t)) text : Acting Unit) := by
  intro t t' h
  simp only [bind_apply]
  unfold noteThrough change
  cases t.player.scribe <;> cases t'.player.scribe <;> exact ⟨rfl, h⟩

theorem steady_perform {act : Act} (h : act.ownDriver) : Steady (perform act) := by
  cases act with
  | log text => exact steady_change fun _ _ h => h
  | pass n => exact steady_tally _
  | fail n detail => exact steady_tally _
  | detail detail => exact steady_tally _
  | call d =>
    rw [perform, ← bind_assoc]
    exact steady_bind (steady_callThrough d) fun _ => steady_change fun _ _ h => h
  | note text => exact steady_noteThrough text
  | count name => exact steady_change fun _ _ h => h
  | failWait i => exact steady_change fun _ _ ⟨hplayer, husable⟩ => ⟨{ hplayer with waitFault := rfl }, husable⟩
  | failResults i =>
    cases i with
    | error e =>
      exact steady_change fun _ _ ⟨hplayer, husable⟩ =>
        ⟨{ hplayer with resultsFault := rfl, calm := by simp }, husable⟩
    | panic p => cases h
  | raise i => exact steady_raise i
  | _ => cases h

theorem steady_performAll {script : Script} (h : ∀ act ∈ script, act.ownDriver) :
    Steady (performAll script) := by
  induction script with
  | nil => exact likens_pure ()
  | cons act script ih =>
    obtain ⟨hact, hrest⟩ := List.forall_mem_cons.1 h
    exact steady_bind (steady_perform hact) fun _ => ih hrest

theorem steady_settleAll (fills : List LaterFill) : Steady (settleAll fills) := by
  induction fills with
  | nil => exact likens_pure ()
  | cons f fills ih =>
    exact steady_bind (steady_deliver f.slot f.delivery) fun _ => steady_bind (steady_log _) fun _ => ih

theorem steady_settle : Steady settle := by
  refine steady_bind (fun t t' ⟨hplayer, husable⟩ => ⟨?_, ?_⟩) steady_settleAll
  · exact congrArg Except.ok hplayer.later
  · exact ⟨{ hplayer with later := rfl }, husable⟩

theorem steady_wait : Steady wait := by
  refine steady_bind (steady_log _) fun _ => steady_bind steady_settle fun _ =>
    steady_bind (fun t t' ⟨hplayer, husable⟩ => ⟨?_, ?_⟩) steady_raiseIf
  · exact congrArg Except.ok hplayer.waitFault
  · exact ⟨{ hplayer with waitFault := rfl }, husable⟩

theorem steady_results : Steady results := by
  refine steady_bind (steady_log _) fun _ => steady_bind steady_settle fun _ =>
    steady_bind (fun t t' h => ⟨congrArg Except.ok h.1.resultsFault, h⟩) fun i =>
    steady_bind (steady_raiseIf i) fun _ t t' h => ⟨congrArg Except.ok h.1.tally, h⟩

theorem settleAll_calm (fills : List LaterFill) (t : Turn) :
    (settleAll fills t).2.player = t.player ∧ ∀ panic, (settleAll fills t).1 ≠ .error (.panic panic) := by
  induction fills generalizing t with
  | nil => exact ⟨rfl, nofun⟩
  | cons f fills ih =>
    rw [settleAll, bind_apply]
    unfold deliver Turn.deliver
    cases f.delivery.action with
    | error e => exact ⟨rfl, nofun⟩
    | ok a => exact ih _

theorem results_calm {t : Turn} (h : ∀ panic, t.player.resultsFault ≠ some (.panic panic)) (panic : Panic) :
    (results t).1 ≠ .error (.panic panic) := by
  obtain ⟨hplayer, hcalm⟩ := settleAll_calm t.player.later { t.log "results" with player.later := [] }
  have hsettle : settle (t.log "results") =
      settleAll t.player.later { t.log "results" with player.later := [] } := rfl
  have hrun : results t = (do settle; raiseIf (← fun t => (.ok t.player.resultsFault, t))
                              fun t => (.ok t.player.tally, t)) (t.log "results") := rfl
  rw [hrun, bind_apply, hsettle]
  rcases hr : settleAll t.player.later { t.log "results" with player.later := [] } with ⟨e | _, t'⟩ <;>
    rw [hr] at hplayer hcalm
  · rintro ⟨⟩
    exact hcalm panic rfl
  · have hfault : t'.player.resultsFault = t.player.resultsFault := by
      rw [show t'.player = _ from hplayer]
      rfl
    rw [← hfault] at h
    simp only [bind_apply]
    unfold raiseIf
    cases hi : t'.player.resultsFault with
    | none => exact nofun
    | some i =>
      rintro ⟨⟩
      exact h panic hi

theorem concur_reply {m : Acting β} (h : Steady m) {s s' : Player × World}
    (hs : Matched Player.Alike World.Usable s s') (next next' : Nat) :
    Concur Player.Alike World.Usable (reply m s next) (reply m s' next') :=
  h ⟨s.1, s.2, next, []⟩ ⟨s'.1, s'.2, next', []⟩ hs

end Acting

/-- Scripts that touch only their own driver make for isolated drivers. -/
theorem backend_isolated {scripts : List Script} (h : ∀ script ∈ scripts, ∀ act ∈ script, act.ownDriver) :
    backend.Isolated Player.Alike World.Usable scripts where
  make := by
    intro w w' hw hw' next next'
    have hmade (w : World) (hw : w.Usable) (next : Nat) :
        (makePlayer w next).result = .ok { number := w.made + 1 } ∧ (makePlayer w next).state.Usable := by
      simp_all [makePlayer, World.Usable, World.write]
    exact ⟨_, _, (hmade w hw next).1, (hmade w' hw' next').1, ⟨rfl, rfl, rfl, rfl, rfl, nofun⟩,
      (hmade w hw next).2, (hmade w' hw' next').2⟩
  wait := fun hs => Acting.concur_reply Acting.steady_wait hs
  scribingOn := fun ⟨hplayer, husable⟩ _ _ _ _ => ⟨rfl, { hplayer with scribe := rfl }, husable⟩
  scribingOff := fun ⟨hplayer, husable⟩ _ _ => ⟨rfl, { hplayer with scribe := rfl }, husable⟩
  perform := fun hs script hmem => Acting.concur_reply (Acting.steady_performAll (h script hmem)) hs
  results := fun hs next next' =>
    ⟨Acting.concur_reply Acting.steady_results hs next next', Acting.results_calm hs.1.calm⟩

end Storyline.Rehearsal
