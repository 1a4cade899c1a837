import Seraphbot.App.Chat
import Seraphbot.Data.Doubling
import Seraphbot.Data.Traverse
import Seraphbot.Ui.Color

/-!
# Drawing the chat

The model of the loop in `manageChat` that draws the chat log, down to the functions of
ImGui that it calls.  The name goes to `TextColored` as an argument of a format, but the
text of a message goes to `TextWrapped` as the format itself.  There are no arguments, so
every conversion in it but `%%` is undefined behaviour.

What `TextWrapped` shows is not part of this program.  It is a parameter, of which two
things are assumed: that the format is one of `printf`, and that texts below some size
are shown as a whole, which is the size of the buffer that they are formatted into.

Everybody who can write a message can write a percent sign, and messages stay in the log.
`chat_drawn_iff` says which messages the window survives.
-/

universe u v

namespace Seraphbot

namespace ImGuiManager

/-- Is this a format that `printf` can do without arguments?  By the C standard, `%%` is
the only conversion that takes none. -/
def isPlainFormat (fmt : Bytes) : Bool := (undouble (byte '%') fmt).isSome

/-- `ImGui::TextWrapped`, called with a format and no arguments. -/
structure TextWrapped where
  /-- The text that is seen, `none` where the behaviour is undefined. -/
  shows : Bytes → Option Bytes
  /-- The format is one of `printf`. -/
  isSome_shows (fmt : Bytes) : (shows fmt).isSome = isPlainFormat fmt
  /-- The size of the buffer. -/
  limit : Nat
  /-- Two percent signs are shown as one, and everything else as it is. -/
  shows_double (text : Bytes) : text.length < limit → shows (double (byte '%') text) = some text

-- One that cuts off what does not fit.
example (limit : Nat) : TextWrapped where
  shows fmt := (undouble (byte '%') fmt).map (List.take limit)
  isSome_shows fmt := Option.isSome_map
  limit
  shows_double text h := by
    rw [undouble_double, Option.map_some, List.take_of_length_le h.le]

/-- A line of the chat. -/
structure Line where
  color : Color
  /-- The argument of the format `"%s: "`. -/
  user : Bytes
  /-- What is seen of the text. -/
  text : Bytes

/-- Why a line is not drawn. -/
inductive DrawError where
  | threw (err : StoulError)
  | undefined

variable (ulong : UnsignedLong) (wrapped : TextWrapped)

/-- The body of the loop. -/
def drawMessage (msg : ChatMessage) : Except DrawError Line := do
  let color ← (hexToImVec4 ulong msg.color).mapError .threw
  match wrapped.shows (cString msg.text) with
  | none => .error .undefined
  | some text => return { color, user := cString msg.user, text }

/-- The loop over the log. -/
def manageChat (chatLog : List ChatMessage) : Except DrawError (List Line) :=
  chatLog.mapM (drawMessage ulong wrapped)

/-! ## What is drawn -/

/-- The line shows the message. -/
structure Shows (msg : ChatMessage) (line : Line) : Prop where
  color : hexToImVec4 ulong msg.color = .ok line.color
  user : line.user = cString msg.user
  text : wrapped.shows (cString msg.text) = some line.text

/-- The color can be read, and no percent sign stands alone in what `TextWrapped` gets
of the text. -/
structure Drawable (msg : ChatMessage) : Prop where
  color : ∃ color, hexToImVec4 ulong msg.color = .ok color
  text : ∃ text, double (byte '%') text = cString msg.text

variable {ulong wrapped}

theorem drawMessage_eq_ok_iff {msg : ChatMessage} {line : Line} :
    drawMessage ulong wrapped msg = .ok line ↔ Shows ulong wrapped msg line := by
  obtain ⟨color, user, text⟩ := line
  unfold drawMessage
  constructor
  · intro h
    cases hcolor : hexToImVec4 ulong msg.color with
    | error err => simp [hcolor, Except.mapError, bind, Except.bind] at h
    | ok color' =>
        cases htext : wrapped.shows (cString msg.text) with
        | none => simp [hcolor, htext, Except.mapError, bind, Except.bind] at h
        | some text' =>
            rw [hcolor, htext] at h
            cases h
            exact ⟨hcolor, rfl, htext⟩
  · rintro ⟨hcolor, rfl, htext⟩
    rw [hcolor, htext]
    rfl

/-- A text is shown, whatever of it, if its percent signs are pairs. -/
theorem TextWrapped.exists_shows_iff (wrapped : TextWrapped) {fmt : Bytes} :
    (∃ text, wrapped.shows fmt = some text) ↔ ∃ text, double (byte '%') text = fmt := by
  rw [← Option.isSome_iff_exists, wrapped.isSome_shows, isPlainFormat, Option.isSome_iff_exists]
  simp only [undouble_eq_some_iff]

theorem exists_drawMessage_iff {msg : ChatMessage} :
    (∃ line, drawMessage ulong wrapped msg = .ok line) ↔ Drawable ulong msg := by
  simp only [drawMessage_eq_ok_iff]
  constructor
  · rintro ⟨line, h⟩
    exact ⟨⟨_, h.color⟩, wrapped.exists_shows_iff.mp ⟨_, h.text⟩⟩
  · rintro ⟨⟨color, hcolor⟩, hformat⟩
    obtain ⟨text, htext⟩ := wrapped.exists_shows_iff.mpr hformat
    exact ⟨⟨color, cString msg.user, text⟩, hcolor, rfl, htext⟩

/-- The log is drawn if every message in it can be. -/
theorem exists_manageChat_iff {chatLog : List ChatMessage} :
    (∃ lines, manageChat ulong wrapped chatLog = .ok lines) ↔
      ∀ msg ∈ chatLog, Drawable ulong msg := by
  rw [manageChat, exists_mapM_eq_ok_iff]
  simp only [exists_drawMessage_iff]

theorem length_cString_le (s : Bytes) : (cString s).length ≤ s.length :=
  (List.takeWhile_sublist _).length_le

/-- A text that is not too long is written with its percent signs doubled. -/
theorem Shows.double_text {msg : ChatMessage} {line : Line} (h : Shows ulong wrapped msg line)
    (hlength : msg.text.length < wrapped.limit) :
    double (byte '%') line.text = cString msg.text := by
  obtain ⟨text, htext⟩ := wrapped.exists_shows_iff.mp ⟨_, h.text⟩
  have hlimit : text.length < wrapped.limit :=
    calc text.length ≤ (double (byte '%') text).length := by
          rw [length_double]
          exact Nat.le_add_right _ _
      _ ≤ msg.text.length := by
          rw [htext]
          exact length_cString_le msg.text
      _ < wrapped.limit := hlength
  have hshown := wrapped.shows_double text hlimit
  rw [htext, h.text] at hshown
  rw [Option.some.inj hshown, htext]

/-- Two percent signs are shown as one, and nothing is shown from a NUL on. -/
theorem Shows.text_eq_iff {msg : ChatMessage} {line : Line} (h : Shows ulong wrapped msg line)
    (hlength : msg.text.length < wrapped.limit) :
    line.text = msg.text ↔ byte '%' ∉ msg.text ∧ 0 ∉ msg.text := by
  have hdouble := h.double_text hlength
  constructor
  · intro heq
    have htext := heq ▸ hdouble
    have hcount := congrArg List.length htext
    rw [length_double] at hcount
    have hpercent : byte '%' ∉ msg.text := by
      have hle := length_cString_le msg.text
      exact List.count_eq_zero.mp (by omega)
    refine ⟨hpercent, cString_eq_self_iff.mp ?_⟩
    rw [← htext, double_of_notMem _ hpercent]
  · rintro ⟨hpercent, hnul⟩
    have htext := (undouble_eq_some_iff _).mpr hdouble
    rw [cString_eq_self_iff.mpr hnul, (undouble_self_iff _).mpr hpercent] at htext
    exact (Option.some.inj htext).symm

end ImGuiManager

namespace Chat

open ImGuiManager

variable {H : Type u} {σ : Type v} (parse : Bytes → Option Json) (parser : σ → CommandParser H)
  (ulong : UnsignedLong) (wrapped : TextWrapped)

/-- Messages stay in the log. -/
theorem step_chatLog (c : Chat σ) (ev : ChatEvent H σ) :
    c.app.chatLog <+: ((machine parse parser).step c ev).1.app.chatLog := by
  have hkeep := List.prefix_rfl (l := c.app.chatLog)
  cases ev with
  | start | lock => exact hkeep
  | frame msg =>
      change _ <+: (c.frame msg).1.app.chatLog
      fun_cases Chat.frame msg c <;> exact hkeep
  | close =>
      change _ <+: c.close.app.chatLog
      fun_cases Chat.close c <;> exact hkeep
  | handle =>
      change _ <+: (c.handle parse).1.app.chatLog
      fun_cases Chat.handle parse c <;> exact hkeep
  | push =>
      change _ <+: c.push.1.app.chatLog
      fun_cases Chat.push c <;> exact hkeep
  | execute invoke =>
      change _ <+: (c.execute parser invoke).app.chatLog
      fun_cases Chat.execute parser invoke c <;> exact hkeep
  | process =>
      simp only [machine]
      split_ifs
      · change _ <+: c.app.processPending.chatLog
        fun_cases AppState.processPending c.app with
        | case1 => exact hkeep
        | case2 msg rest => exact List.prefix_append _ [msg]
      · exact hkeep

/-- **Which messages the window survives.**  In every interleaving of the reading
coroutine with the user interface, and for every `TextWrapped` that does what is assumed
of it: the chat can be drawn at every moment of the run exactly if each message that is
in the log by the end has a color that can be read, and no percent sign that stands
alone.  A message that can be drawn and is shorter than the buffer is shown as it was
written exactly if it has neither percent signs nor NULs. -/
theorem chat_drawn_iff (rest : σ) (es : List (ChatEvent H σ)) :
    let c := (machine parse parser).run { rest } es
    ((machine parse parser).Visits
        (fun c ↦ ∃ lines, manageChat ulong wrapped c.app.chatLog = .ok lines) { rest } es ↔
      ∀ msg ∈ c.app.chatLog, Drawable ulong msg) ∧
      ∀ lines, manageChat ulong wrapped c.app.chatLog = .ok lines →
        List.Forall₂ (fun msg line ↦ msg.text.length < wrapped.limit →
            (line.text = msg.text ↔ byte '%' ∉ msg.text ∧ 0 ∉ msg.text))
          c.app.chatLog lines := by
  refine ⟨?_, fun lines h ↦ ?_⟩
  · simp only [exists_manageChat_iff]
    exact Machine.visits_iff_run fun c ev h msg hmsg ↦
      h msg ((step_chatLog parse parser c ev).subset hmsg)
  · refine (mapM_eq_ok_iff.mp h).imp fun msg line hline ↦ ?_
    exact (drawMessage_eq_ok_iff.mp hline).text_eq_iff

end Chat

end Seraphbot
