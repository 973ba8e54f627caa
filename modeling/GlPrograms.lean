import GlPrograms.Cache.Lemmas
import GlPrograms.Describe
import GlPrograms.Session.Play
import GlPrograms.Proofs.Action.Only
import GlPrograms.Proofs.Build.Exits
import GlPrograms.Proofs.Cache.Turns
import GlPrograms.Proofs.Course
import GlPrograms.Proofs.Cache.History
import GlPrograms.Proofs.Cache.Recall
import GlPrograms.Proofs.Ledger
import GlPrograms.Proofs.Provenance
import GlPrograms.Proofs.Names
import GlPrograms.Proofs.Build.Alike
import GlPrograms.Proofs.Cache.Alike
import GlPrograms.Proofs.Renderer
import GlPrograms.Proofs.Build.Calls
import GlPrograms.Proofs.Failure
import GlPrograms.Proofs.Scripted
import GlPrograms.Proofs.Handles
import GlPrograms.Proofs.Records
import GlPrograms.Proofs.Attempts
import GlPrograms.Proofs.Ending
import GlPrograms.Proofs.Isolation
import GlPrograms.Proofs.Drawing
import GlPrograms.Proofs.Refinement
import GlPrograms.Proofs.Session.Listening
import GlPrograms.Proofs.Reading
import GlPrograms.Proofs.Build.Phases
import GlPrograms.Proofs.Room
import GlPrograms.Proofs.Trail
import GlPrograms.Proofs.Session.Looking
import GlPrograms.Proofs.Numbering
import GlPrograms.Proofs.Excerpt
import GlPrograms.Proofs.Build.Accounts
import GlPrograms.Proofs.Rounding
import GlPrograms.Proofs.Elapsed
import GlPrograms.Proofs.Ages
import GlPrograms.Proofs.Accuracy
