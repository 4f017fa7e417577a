import CamReverse.Lifecycle

/-!
# What a connected session went through

A callback that leaves its session connected leaves its flags and its timer as they were; and if it was a round of
`_sess_timer`, the camera was not silent for longer than the timeout (`callback_connected`).
-/

namespace CamReverse

open Effect

variable {ε : Type}

theorem hear_connected {l : Life} {evs : List Event} (h : (evs.foldl Life.hear l).connected = true) :
    evs.foldl Life.hear l = l := by
  rw [foldl_hear] at h ⊢
  split_ifs at h ⊢
  · rw [connected_disconnected] at h
    cases h
  · rfl

/-- From `s` to `s'` a connected session at most got a packet and lost its `_resend_timer`. -/
structure StaysConnected (s s' : Session) : Prop where
  connected : s.connected = true
  timeoutMs : s'.timeoutMs = s.timeoutMs
  started : s'.started = s.started
  sessTimer : s'.sessTimer = s.sessTimer

theorem callback_connected {L : Listeners ε} (hL : L.Orderly) (now : ℚ) (w : World ε) {c : Callback} (hc : c ≠ .ready)
    (hconnected : (callback L now w c).session.connected = true) :
    StaysConnected w.session (callback L now w c).session ∧
      (c = .sessTick → w.session.sessTimer = true → timesOut w.session now = false) := by
  by_cases hdue : c.due w.session = true
  · unfold callback at hconnected ⊢
    rw [if_pos hdue] at hconnected ⊢
    cases c with
    | ready => exact absurd rfl hc
    | datagram config msg =>
      obtain ⟨evs, -, -, hlife⟩ := handleIncoming_life hL config now msg w
      have hheard : (evs.foldl Life.hear w.session.life).connected = true :=
        (congrArg Life.connected hlife).symm.trans hconnected
      rw [hear_connected hheard] at hlife hheard
      exact ⟨⟨hheard, congrArg Life.timeoutMs hlife, congrArg Life.started hlife, congrArg Life.sessTimer hlife⟩,
        by rintro ⟨⟩⟩
    | sessTick =>
      obtain ⟨evs, -, hfinal⟩ := sessTimer_final L now w
      dsimp only at hconnected ⊢
      rw [hfinal] at hconnected ⊢
      split_ifs at hconnected ⊢ with htimedOut
      · exact absurd hconnected (Bool.eq_false_iff.1 (connected_onDisconnect w.session))
      · exact ⟨⟨hconnected, rfl, rfl, rfl⟩, fun _ _ => Bool.eq_false_iff.2 htimedOut⟩
    | resendTick =>
      obtain ⟨w', running, ⟨evs, -, -, hlife, -⟩, hfinal⟩ := resendTimer_final now w
      dsimp only at hconnected ⊢
      rw [hfinal] at hconnected ⊢
      exact ⟨⟨(congrArg Life.connected hlife).symm.trans hconnected, congrArg Life.timeoutMs hlife,
        congrArg Life.started hlife, congrArg Life.sessTimer hlife⟩, by rintro ⟨⟩⟩
    | close => exact absurd hconnected (Bool.eq_false_iff.1 (connected_onDisconnect w.session))
  · have hsame := callback_of_not_due (Bool.eq_false_iff.2 hdue) L now
    rw [hsame] at hconnected ⊢
    refine ⟨⟨hconnected, rfl, rfl, rfl⟩, ?_⟩
    rintro rfl htimer
    exact absurd htimer hdue

theorem connected_ready (L : Listeners ε) (now : ℚ) (w : World ε) :
    (callback L now w .ready).session.connected = w.session.connected := by
  by_cases habsent : w.session.transport = .absent
  · obtain ⟨evs, running, -, -, -, hlife⟩ := callback_ready habsent L now
    exact congrArg Life.connected hlife
  · have hdue : Callback.due w.session .ready = false := decide_eq_false habsent
    rw [callback_of_not_due hdue]

end CamReverse
