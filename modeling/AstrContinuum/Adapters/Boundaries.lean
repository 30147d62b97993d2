import AstrContinuum.Adapters.ToolMetadata
import AstrContinuum.Runtime.Projection

/-!
# The boundaries of a projection

`select_projection_boundaries`, in `adapters/astrbot.py`, chooses what the guard preserves: the leading
system messages and the last message, which has to be the user's. While that message stays the last
one, nothing stands behind it, and the projection under these boundaries can be undone.
-/

namespace AstrContinuum

open Checked

variable {Object : Type}

/-- `select_projection_boundaries`. The role of a message is what `_message_role` reads. -/
def selectProjectionBoundaries (messageRole : Object → Option String)
    (messages : Option (MessageList Object)) :
    Except AdapterFailure (List Object × List Object) := do
  let messages ← orMissing messages .messageBoundaryInvalid
  let last ← orMissing messages.objects.getLast? .messageBoundaryInvalid
  require (messageRole last = some "user") .messageBoundaryInvalid
  pure (messages.objects.takeWhile fun message => messageRole message = some "system", [last])

/-- The selected boundaries: leading system messages, and the last message of the list. -/
theorem selectProjectionBoundaries_ok {messageRole : Object → Option String}
    {messages : MessageList Object} {systemObjects currentObjects : List Object}
    (h : selectProjectionBoundaries messageRole (some messages) =
      .ok (systemObjects, currentObjects)) :
    systemObjects <+: messages.objects ∧
      ∃ last, messages.objects.getLast? = some last ∧ currentObjects = [last] := by
  obtain ⟨checked, hchecked, h⟩ := bind_ok.mp h
  obtain rfl := Option.some.inj (orMissing_ok.mp hchecked)
  obtain ⟨last, hlast, h⟩ := bind_ok.mp h
  obtain ⟨_, -, h⟩ := bind_ok.mp h
  obtain ⟨rfl, rfl⟩ := Prod.mk.inj (pure_ok.mp h)
  exact ⟨List.takeWhile_prefix _, last, orMissing_ok.mp hlast, rfl⟩

/-- Hooks that leave the current message at the end of the list leave nothing behind it. -/
theorem nothingBehind_of_boundaries [DecidableEq Object] {messageRole : Object → Option String}
    {native changed : MessageList Object} {systemObjects currentObjects : List Object}
    (h : selectProjectionBoundaries messageRole (some native) = .ok (systemObjects, currentObjects))
    (hlast : changed.objects.getLast? = native.objects.getLast?) :
    NothingBehind native systemObjects currentObjects changed := by
  obtain ⟨-, last, hcurrent, rfl⟩ := selectProjectionBoundaries_ok h
  rw [hcurrent] at hlast
  obtain ⟨front, hchanged⟩ := List.getLast?_eq_some_iff.mp hlast
  intro object hobject
  rw [hchanged, behind_split (by simp) (by simp)] at hobject
  cases hobject

end AstrContinuum
