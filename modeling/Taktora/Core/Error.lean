import Taktora.Lib.Checked

namespace Taktora

open Checked

inductive ConnectorError where
  | payloadOverflow (actual max : Nat)
  | configuration (message : String)
  | down (reason : String)
  | stack (message : String)
deriving DecidableEq

def ConnectorError.text : ConnectorError → String
  | .payloadOverflow actual max =>
    "payload overflow: encoded size " ++ toString actual ++ " exceeds channel max " ++ toString max
  | .configuration message => "invalid descriptor: " ++ message
  | .down reason => "connector down: " ++ reason
  | .stack message => "stack error: " ++ message

inductive Failure where
  | connector (error : ConnectorError)
  | panicked (panic : Panic)
deriving DecidableEq

end Taktora
