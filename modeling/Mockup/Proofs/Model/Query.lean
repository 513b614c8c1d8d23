import Mockup.Proofs.Json.Range
import Mockup.Proofs.Json.Reading
import Mockup.Proofs.Model.Outcome
import Mockup.Proofs.Text.Base64

/-! What the model server makes of a post. Any reader of JSON finds one object in the body, and in
it the question as it was put, with the bytes of the image. -/

namespace Mockup.Model

open Json Number

/-- The members of an object put a question: to a model, with an image or without one, to be
answered in one piece. Nothing is said twice. -/
structure Puts (model prompt : String) (image : Option Bytes) (ms : List (String × Json)) :
    Prop where
  distinct : (ms.map (·.1)).Nodup
  model : (object ms).member? "model" = some (string model)
  prompt : (object ms).member? "prompt" = some (string prompt)
  stream : (object ms).member? "stream" = some (bool false)
  temperature : ∃ n, (object ms).member? "temperature" = some (number n)
  no_image : image = none → (object ms).member? "images" = none
  image : ∀ bytes, image = some bytes → ∃ text : String,
    (object ms).member? "images" = some (array [string text]) ∧
      Text.Base64.decode? text.toList = some bytes

namespace Query

variable {model prompt : String} {temperature : Floating}

/-- A temperature of single precision is written as a number that can be read back. -/
theorem exists_ofSingle (h : Format.single.IsNumber temperature) :
    ∃ n, ofSingle temperature = number n ∧ IsLegible n := by
  cases temperature with
  | finite s m e => exact ⟨_, rfl, isLegible_iff.2 (inRange_shortest_single h)⟩
  | infinite s => cases h
  | nan => cases h

theorem puts_about (model prompt : String) (h : Format.single.IsNumber temperature)
    (image : Option Bytes) :
    ∃ ms, (about model prompt temperature image).json = object ms ∧ Readable maxOpen (object ms) ∧
      Puts model prompt image ms := by
  obtain ⟨n, hnumber, hlegible⟩ := exists_ofSingle h
  refine ⟨_, rfl, ?_, ?_⟩
  · cases image <;>
      simp [about, Readable, ReadableMembers, ReadableItems, hnumber, hlegible, maxOpen]
  · cases image with
    | none =>
      exact {
        distinct := by simp [about]
        model := rfl
        prompt := rfl
        stream := rfl
        temperature := ⟨n, congrArg some hnumber⟩
        no_image := fun _ => rfl
        image := nofun }
    | some bytes =>
      exact {
        distinct := by simp [about]
        model := rfl
        prompt := rfl
        stream := rfl
        temperature := ⟨n, congrArg some hnumber⟩
        no_image := nofun
        image := by
          rintro _ ⟨⟩
          refine ⟨_, rfl, ?_⟩
          rw [String.toList_ofList]
          exact Text.Base64.decode?_encode bytes }

/-- The body of a question is one JSON object, and that object puts the question. -/
theorem body_puts (h : Format.single.IsNumber temperature) (image : Option Bytes) :
    ∃ ms, IsTextOf (about model prompt temperature image).body.toList (object ms) ∧
      ofText? (about model prompt temperature image).body = some (object ms) ∧
        Puts model prompt image ms := by
  obtain ⟨ms, hjson, hreadable, hputs⟩ := puts_about model prompt h image
  have hread : ofText? (about model prompt temperature image).body = some (object ms) := by
    rw [body, hjson]
    exact ofText?_write hreadable
  exact ⟨ms, ofText?_eq_some_iff.1 hread, hread, hputs⟩

end Query

namespace Client

variable {c : Client} {r : Request} {d : Disk} {reactions : Nat → Reaction}

theorem Shows.unique {image image' : Option Bytes} (h : Shows d r image) (h' : Shows d r image') :
    image = image' := by
  cases h with
  | nothing h =>
    cases h' with
    | nothing _ => rfl
    | file h' _ => cases h.symm.trans h'
  | file h hread =>
    cases h' with
    | nothing h' => cases h.symm.trans h'
    | file h' hread' =>
      cases h.symm.trans h'
      cases hread.symm.trans hread'
      rfl

theorem exists_shows_of_post {p : Post} (h : p ∈ (c.generate d r reactions).posts) :
    ∃ image, Shows d r image := by
  cases himage : r.image with
  | none => exact ⟨none, .nothing himage⟩
  | some path =>
    cases hread : d.read path with
    | ok bytes => exact ⟨some bytes, .file himage hread⟩
    | error e =>
      rw [generate_of_unreadable himage hread] at h
      exact absurd h List.not_mem_nil

/-- The model server can read back what it is asked. Whatever model and prompt are, and whatever
bytes the image has, each post of a call is one JSON object that puts the question; and the question
is posted, where posts go out at all. -/
theorem posts_put (c : Client) (d : Disk) (r : Request) (reactions : Nat → Reaction)
    (htemperature : Format.single.IsNumber r.temperature) :
    (∀ p ∈ (c.generate d r reactions).posts, ∃ image ms, Shows d r image ∧
      IsTextOf p.body.toList (object ms) ∧ ofText? p.body = some (object ms) ∧
        Puts r.model r.prompt image ms) ∧
    ∀ image, Shows d r image → c.target?.isSome → (c.generate d r reactions).posts ≠ [] := by
  constructor
  · intro p hp
    obtain ⟨image, hshows⟩ := exists_shows_of_post hp
    rw [generate_of_shows hshows] at hp
    obtain ⟨reaction, rfl⟩ := exists_of_mem_send hp
    obtain ⟨ms, hbody⟩ := Query.body_puts htemperature image
    exact ⟨image, ms, hshows, hbody⟩
  · intro image hshows htarget
    obtain ⟨k, hsends⟩ := c.exists_sends r image reactions
    have hpos := hsends.pos
    rw [generate_of_shows hshows, hsends.posts_eq, if_pos htarget]
    simp only [ne_eq, List.map_eq_nil_iff, List.range'_eq_nil_iff]
    omega

def pictureDisk : Disk where
  entries := [(["a.png"], .file [137, 80])]

/-- A prompt with a quote, a backslash, a control character and one beyond sixteen bits, and a
picture whose last group of bytes is not full. -/
def pictureRequest : Request where
  model := "llava"
  prompt := "\"\\\x01𝄞"
  image := some "a.png"

theorem posts_put_picture :
    ∃ p ∈ (generate ⟨"http://gpu-box/api/generate", .standard⟩ pictureDisk pictureRequest
        fun _ => .silence).posts,
      ∃ ms, ofText? p.body = some (object ms) ∧ Puts "llava" "\"\\\x01𝄞" (some [137, 80]) ms := by
  have hshows : Shows pictureDisk pictureRequest (some [137, 80]) := .file rfl (by decide)
  obtain ⟨hputs, hposts⟩ := posts_put ⟨"http://gpu-box/api/generate", .standard⟩ pictureDisk
    pictureRequest (fun _ => .silence) (by decide)
  obtain ⟨p, hp⟩ := List.exists_mem_of_ne_nil _ (hposts _ hshows (by decide +kernel))
  obtain ⟨image, ms, himage, -, hread, hms⟩ := hputs p hp
  rw [himage.unique hshows] at hms
  exact ⟨p, hp, ms, hread, hms⟩

end Client

end Mockup.Model
