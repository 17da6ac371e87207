import Baseimage.LogMonitor.Debouncing
import Baseimage.Timing.Delivery

/-!
# Failed deliveries

The time of a send is kept whether or not its program could be launched, so a send that reached
nobody debounces the lines that follow. In every run, the lines that are suppressed are those owed
to a send that was launched exactly if every send that was not is over before the next line matches:
the debouncing time has passed, or there is none.
-/

namespace Baseimage.LogMonitor

open Delivery

variable {ctx : Context}

/-- What happened to a pair, with the sends that failed. -/
def deliveries (pair : Pair ctx) (log : List (Event ctx)) : List Delivery :=
  log.filterMap fun
    | .suppressed other checked => if other = pair then some (.suppressed checked) else none
    | .invoked other checked _ _ _ _ launched =>
        if other = pair then some (.sent checked launched) else none
    | .recorded other now => if other = pair then some (.recorded now) else none
    | _ => none

theorem deliveries_event (pair : Pair ctx) (log : List (Event ctx)) :
    (deliveries pair log).map Delivery.event = pairEvents pair log := by
  rw [deliveries, List.map_filterMap, pairEvents]
  refine List.filterMap_congr fun e _ => ?_
  cases e with
  | suppressed other checked => by_cases here : other = pair <;> simp [here, event]
  | invoked other checked _ _ _ _ launched => by_cases here : other = pair <;> simp [here, event]
  | recorded other now => by_cases here : other = pair <;> simp [here, event]
  | filtered => rfl
  | text => rfl

/-- In every run of lines, failed sends to a pair suppress nothing exactly if they are outlasted. -/
theorem failedDeliveries_sound_iff (lines : List (Fin ctx.monitoredFiles.length × Str))
    (answers : List Answer) (pair : Pair ctx) :
    Sound (debouncing pair)
        (deliveries pair ((Code.handleLines lines).run answers {}).state.history.reverse) ↔
      Outlasted (debouncing pair)
        (deliveries pair ((Code.handleLines lines).run answers {}).state.history.reverse) := by
  obtain ⟨state, here⟩ := Code.handleLines_debounces lines answers pair
  have runs : Runs (debouncing pair) (deliveries pair
      ((Code.handleLines lines).run answers {}).state.history.reverse) state := by
    rw [Runs, deliveries_event]
    exact here
  exact sound_iff runs

def mailPair : Pair mailContext := (⟨0, by decide⟩, ⟨0, by decide⟩)

/-- The first send fails, and the line five seconds later is suppressed. -/
theorem failedDelivery_suppresses :
    ¬ Sound (debouncing mailPair)
      (deliveries mailPair
        ((Code.handleLines (mailLines.take 2)).run
          [.filter (some 0), .launched false, .clock (some 100), .filter (some 0),
            .clock (some 105)] {}).state.history.reverse) := by
  have log : deliveries mailPair
      ((Code.handleLines (mailLines.take 2)).run
        [.filter (some 0), .launched false, .clock (some 100), .filter (some 0),
          .clock (some 105)] {}).state.history.reverse =
      [.sent none false, .recorded 100, .suppressed (some 105)] := rfl
  rw [log]
  intro sound
  obtain ⟨_, none⟩ := sound.blameless [] none 100 [] (some 105) [] rfl
  cases none

end Baseimage.LogMonitor
