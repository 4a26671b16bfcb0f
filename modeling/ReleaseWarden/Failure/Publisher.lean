import ReleaseWarden.Failure.Event

/-! Handing announcements over to whoever listens. -/

set_option autoImplicit false

namespace ReleaseWarden

inductive PublishError
  | channelClosed (title : String)
  | rejected (reason : String)
  deriving DecidableEq, Repr

namespace PublishError

def message : PublishError → String
  | channelClosed title => "event channel closed: " ++ title
  | rejected reason => "failed to publish event: " ++ reason

end PublishError

inductive Publisher
  | listening
  | refusing (reason : String)
  | closed
  deriving DecidableEq, Repr

namespace Publisher

def publish (p : Publisher) (sent : List FailureEvent) (e : FailureEvent) :
    Except PublishError Unit × List FailureEvent :=
  match p with
  | listening => (.ok (), sent ++ [e])
  | refusing reason => (.error (.rejected reason), sent)
  | closed => (.error (.channelClosed e.sourceTitle), sent)

end Publisher

end ReleaseWarden
