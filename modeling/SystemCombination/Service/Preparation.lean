import SystemCombination.Service.Action

/-! Preparation: the configuration is taken, the log is set up and the model is loaded, in this
order and before any address is bound. Each step is reported as an event; the first failure is
reported and ends it. -/

namespace SystemCombination

/-- What a preparation that succeeds has put together. -/
structure Service where
  config : Config
  model : Model

/-- The model in the named file, of which `source` is the content. -/
def ModelConfig.load (config : ModelConfig) (source : Except IoError (List UInt8)) :
    Except Model.Error Model :=
  Model.load config.backend config.file config.order source

namespace Preparation

variable {m : Type → Type} [Monad m]

/-- The end of a preparation that fails. -/
def fail (perform : Performer m) (error : Error) : m (Except Error Service) := do
  perform (.report (.failed error))
  return .error error

def run (perform : Performer m) (loaded : Except CommandLine.Error Config) :
    m (Except Error Service) := do
  perform (.report .starting)
  match loaded with
  | .error error => fail perform (.configuration error)
  | .ok config =>
    match ← perform (.startLog config.log) with
    | .error error => fail perform (.logFilter error)
    | .ok () =>
      perform (.report (.modelLoading config.lm))
      match config.lm.load (← perform (.readModel config.lm.file)) with
      | .error error =>
        perform (.report (.modelFailed error))
        fail perform (.model error)
      | .ok model =>
        perform (.report (.modelReady model))
        perform (.report (.prepared config))
        return .ok ⟨config, model⟩

end Preparation

end SystemCombination
