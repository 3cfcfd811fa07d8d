import Choreography.Desk

/-! Listening for the response to a request. Who listens hears the first response,
and hears of it when the request is discarded; at the deadline he leaves. -/

namespace Choreography

/-- What may happen at the desk while somebody listens. -/
inductive DeskEvent where
  | response (id : String) (body : Fields)
  | discard (id : String)

/-- What listening came to, and what was then still to happen. -/
structure Heard where
  desk : Desk
  now : Instant
  result : Except Error Fields
  later : List (Instant × DeskEvent) := []

namespace Desk

/-- What happens changes the desk, unless it is a response that the desk refuses. -/
def happen (d : Desk) : DeskEvent → Desk
  | .response id body => (d.callAbout "respond" (.text id) body).1
  | .discard id => (d.discard id).1

/-- Listens for a pending request that has no response yet, while things happen one
after the other. -/
def listenOn (d : Desk) (id : String) (deadline : Instant) :
    List (Instant × DeskEvent) → Heard
  | [] => { desk := d, now := deadline, result := .error (.plain .timeout "") }
  | (moment, event) :: rest =>
    if deadline < moment then
      { desk := d, now := deadline, result := .error (.plain .timeout "")
        later := (moment, event) :: rest }
    else
      let d := d.happen event
      match d.find? id with
      | none => { desk := d, now := moment, result := .error (.plain .cancelled ""), later := rest }
      | some r =>
        match r.response with
        | some body => { desk := d, now := moment, result := .ok body, later := rest }
        | none => d.listenOn id deadline rest

/-- Listens for the response to a request from now on. What is to happen is given in
the order of its moments. Without time to listen only a response that is there counts. -/
def listen (d : Desk) (wanted : Value) (now deadline : Instant)
    (coming : List (Instant × DeskEvent)) : Heard :=
  let heard (result : Except Error Fields) : Heard := { desk := d, now, result, later := coming }
  match d.lookUp wanted with
  | .error e => heard (.error e)
  | .ok none => heard (.error (.missingKey wanted.plainText))
  | .ok (some r) =>
    match r.response with
    | some body => heard (.ok body)
    | none =>
      if deadline ≤ now then heard (.error (.plain .timeout ""))
      else d.listenOn r.id deadline coming

end Desk

end Choreography
