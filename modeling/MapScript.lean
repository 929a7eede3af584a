import MapScript.Main
import MapScript.Tool.FileTree
import MapScript.Proofs.RecordStreams
import MapScript.Proofs.Rebuild.Parts
import MapScript.Proofs.Rebuild.Copies
import MapScript.Proofs.Rebuild.Histories
import MapScript.Proofs.Rebuild.Settled
import MapScript.Proofs.Rebuild.Untouched
import MapScript.Proofs.Rebuild.Variables
import MapScript.Proofs.Rebuild.Pooled
import MapScript.Proofs.Script.Names
import MapScript.Proofs.Script.Sequences
import MapScript.Proofs.Script.Seats
import MapScript.Proofs.Code.Linking
import MapScript.Proofs.Code.Joined
import MapScript.Proofs.Code.Relabelled
import MapScript.Proofs.Code.Strings
import MapScript.Proofs.Code.Blame
import MapScript.Proofs.Code.Accepted
import MapScript.Proofs.Listing.Excerpts
import MapScript.Proofs.Listing.Values
import MapScript.Proofs.Listing.Formulas
import MapScript.Proofs.Listing.Outline
import MapScript.Proofs.Listing.Blocks
import MapScript.Proofs.Listing.Places
import MapScript.Proofs.Listing.Scripts
import MapScript.Proofs.Listing.Nesting
import MapScript.Proofs.Listing.Layout
import MapScript.Proofs.Listing.Reassembled
import MapScript.Proofs.Listing.Recompiled
import MapScript.Proofs.Listing.Regrouped
import MapScript.Proofs.Listing.RoundTrip
import MapScript.Proofs.Listing.Inert
import MapScript.Proofs.Listing.Lenient
import MapScript.Proofs.Listing.Addresses
import MapScript.Proofs.Listing.Enclosed
import MapScript.Proofs.Listing.Braces
import MapScript.Proofs.Listing.Labels
import MapScript.Proofs.Listing.Restored
import MapScript.Proofs.Listing.MapTexts
import MapScript.Proofs.Faults
import MapScript.Proofs.Dialogue
import MapScript.Proofs.DialogueFiles
import MapScript.Proofs.DefinitionFiles
import MapScript.Proofs.Script.Respaced
import MapScript.Proofs.Script.Quoted
import MapScript.Proofs.Lookups
