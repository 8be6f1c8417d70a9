import SystemCombination.Model.Basic
import SystemCombination.Service.LogFilter

/-! What a service does to the machine that it runs on, and what the machine answers. The steps of
a life are reported as events. -/

namespace SystemCombination

inductive EndpointError
  | resolve (endpoint : Endpoint) (error : IoError)
  | resolvedToNothing (endpoint : Endpoint)
  | bind (address : String) (error : IoError)
  /-- The address of the bound socket cannot be read. -/
  | addressless (error : IoError)
  /-- The bound socket cannot be polled. -/
  | polling (error : IoError)
  /-- What serves the connections has broken down. -/
  | brokenDown
deriving DecidableEq, Repr

namespace EndpointError

def message : EndpointError → String
  | resolve endpoint error =>
    "cannot resolve listen address " ++ endpoint.host ++ ":" ++ toString endpoint.port ++ ": " ++
      error.message
  | resolvedToNothing endpoint =>
    "listen address " ++ endpoint.host ++ ":" ++ toString endpoint.port ++ " resolved to nothing"
  | bind address error => "cannot listen on " ++ address ++ ": " ++ error.message
  | addressless error => "cannot read the bound request port: " ++ error.message
  | polling error => "cannot switch the request port to polling mode: " ++ error.message
  | brokenDown => "accept thread panicked"

end EndpointError

/-- Why a preparation fails. -/
inductive Preparation.Error
  | configuration (error : CommandLine.Error)
  | logFilter (error : LogFilter.Error)
  | model (error : Model.Error)
deriving DecidableEq, Repr

def Preparation.Error.message : Preparation.Error → String
  | configuration error => "failed to load configuration: " ++ error.message
  | logFilter error => "failed to initialise telemetry: " ++ error.message
  | model error => "failed to load language model: " ++ error.message

inductive Event
  | starting
  | modelLoading (config : ModelConfig)
  | modelReady (model : Model)
  | modelFailed (error : Model.Error)
  | failed (error : Preparation.Error)
  | prepared (config : Config)
  | listening

inductive Action
  | report (event : Event)
  | startLog (log : LogSettings)
  /-- Open the model file and read it. -/
  | readModel (path : String)
  | bind (endpoint : Endpoint)
  /-- Serve connections to the bound address with a model from now on. -/
  | startServing (model : Model)
  /-- Wait for a termination signal. -/
  | awaitSignal
  /-- Stop serving once the connection that is being served has ended. -/
  | stopServing

/-- What an action is answered with. -/
abbrev Action.Answer : Action → Type
  | report _ => Unit
  | startLog _ => Except LogFilter.Error Unit
  | readModel _ => Except IoError (List UInt8)
  | bind _ | startServing _ | stopServing => Except EndpointError Unit
  | awaitSignal => Except IoError Unit

/-- How a machine performs actions. -/
abbrev Performer (m : Type → Type) := (action : Action) → m action.Answer

end SystemCombination
