import BrokerProbe.Proofs.Metric.Tally
import BrokerProbe.Proofs.Round.Transcript
import BrokerProbe.Round.Survey
/-!
# Surveys whatever they are answered

A survey fetches the topology, gives it back and records how the fetch went.
Nothing that it is answered keeps it from completing.
-/

namespace BrokerProbe

namespace Round

open Dialogue (Conversation)

namespace Survey

variable {survey : Survey} {exchanges : List Exchange} {ending : Ending}

theorem asks_round {kind : Question -> Prop}
    (hmetric : forall question : Metric.Question, question.Fits -> kind (.metric question))
    (hfetch : kind .fetch) (hclose : kind .close) (htell : forall event, kind (.tell event))
    (survey : Survey) : survey.round.Asks kind := by
  have hrecord : forall elapsed failed ratio,
      (survey.record elapsed failed ratio).Asks Metric.Question.Fits := by
    intro elapsed failed ratio
    have hkind : (Metric.Key.latency survey.role).kind.Windowed := rfl
    refine Dialogue.Asks.bind ((Metric.Publisher.asks_window _ hkind _).mono
      fun _ h => h.fits) fun window => ?_
    refine Dialogue.Asks.bind (Dialogue.asks_request.mpr trivial) fun _ => ?_
    exact Dialogue.Asks.bind (Metric.Publisher.asks_showAvailability_fits _) fun _ =>
      ⟨trivial, fun _ => trivial⟩
  refine Dialogue.Asks.bind (Dialogue.asks_request.mpr hfetch) fun fetched => ?_
  refine Dialogue.Asks.bind (Dialogue.asks_request.mpr hclose) fun _ => ?_
  refine Dialogue.Asks.bind ((hrecord _ _ _).widen hmetric) fun latency => ?_
  exact ⟨htell _, fun _ => trivial⟩

theorem record_inv {elapsed : Nat} {failed : Bool} {ratio : Option Float}
    {recorded : List (Dialogue.Exchange Metric.Question Metric.Answer)}
    {latency : Metric.Statistics}
    (h : Conversation (survey.record elapsed failed ratio) recorded latency) :
    exists claim handle shown key,
      recorded = claim ++ ⟨.record handle (Latency.recorded elapsed failed), ()⟩ ::
        (shown ++ [⟨.read handle, latency⟩]) ∧
      Conversation (survey.publisher.window (.latency survey.role) capacity) claim handle ∧
      Conversation (survey.publisher.showAvailability ratio) shown key := by
  rcases h.bind_inv with ⟨claim, handle, _, rfl, hwindow, hrecording⟩
  rcases hrecording.request_bind_inv with ⟨_, _, rfl, hshowing⟩
  rcases hshowing.bind_inv with ⟨shown, key, _, rfl, hshows, hreading⟩
  rw [hreading.request_inv]
  exact ⟨claim, handle, shown, key, rfl, hwindow, hshows⟩

theorem round_inv (h : Conversation survey.round exchanges ending) :
    exists fetched rest latency,
      exchanges = ⟨.fetch, fetched⟩ :: rest ∧
      Conversation
        (survey.record fetched.elapsed (isFailure fetched.value)
          (Metric.availability 1 (if isFailure fetched.value then 1 else 0)))
        (metricExchanges exchanges) latency ∧
      exists outcome, ending = .completed outcome := by
  rcases h.request_bind_inv with ⟨fetched, closing, rfl, hclosing⟩
  rcases hclosing.request_bind_inv with ⟨_, recording, rfl, hrecording⟩
  rcases hrecording.bind_inv with ⟨_, latency, telling, rfl, hrecord, htelling⟩
  rcases htelling.request_bind_inv with ⟨_, nothing, rfl, hdone⟩
  rcases hdone.done_inv with ⟨rfl, rfl⟩
  rcases recording_inv hrecord with ⟨recorded, rfl, hrecorded⟩
  refine ⟨fetched, _, latency, rfl, ?_, _, rfl⟩
  simpa using hrecorded

end Survey

end Round

end BrokerProbe
