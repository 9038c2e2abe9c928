import FatFsParticle.Interact.Logic
import FatFsParticle.Sdspi.Guard
import FatFsParticle.Sdspi.Report
import FatFsParticle.Sdspi.Listen
import FatFsParticle.Sdspi.Clock
import FatFsParticle.Sdspi.Handshake
import FatFsParticle.Sdspi.Exclusive
import FatFsParticle.Sdspi.Card
import FatFsParticle.Sdspi.Commands
import FatFsParticle.Sdspi.Read
import FatFsParticle.Sdspi.Prompt
import FatFsParticle.Sdspi.Write
import FatFsParticle.Drives.Path
import FatFsParticle.Drives.Table
import FatFsParticle.Drives.Effects
import FatFsParticle.Drives.Steps
import FatFsParticle.Interact.Course
import FatFsParticle.Drives.Agreement
import FatFsParticle.Drives.Isolation
import FatFsParticle.Drives.Slots
import FatFsParticle.Drives.Failure
import FatFsParticle.Sdspi.Watch
import FatFsParticle.Sdspi.Close
import FatFsParticle.Sdspi.Turns
import FatFsParticle.Cells.Slice
import FatFsParticle.Files.Volume
import FatFsParticle.Files.Access
import FatFsParticle.Files.Rules
import FatFsParticle.Files.Footprint
import FatFsParticle.Files.Cache
import FatFsParticle.Files.Reading
import FatFsParticle.Files.Writing
import FatFsParticle.Files.Opening
import FatFsParticle.Files.Closing
import FatFsParticle.Files.Durable
import FatFsParticle.Files.Copy
import FatFsParticle.Files.CopyEnds
import FatFsParticle.Files.Seeking
import FatFsParticle.Files.Getline
import FatFsParticle.Files.Append
import FatFsParticle.Interact.Total
import FatFsParticle.Sdspi.Timeout
import FatFsParticle.Sdspi.Tape
import FatFsParticle.Sdspi.Frames
import FatFsParticle.Sdspi.Addressing
import FatFsParticle.Sdspi.Control
import FatFsParticle.Sdspi.Capacity
import FatFsParticle.Sdspi.Erase
import FatFsParticle.Sdspi.Activity
import FatFsParticle.Sdspi.Nesting
import FatFsParticle.Sdspi.Busy
import FatFsParticle.Usage.Mount
import FatFsParticle.Usage.Figures
import FatFsParticle.Scan.Directory
import FatFsParticle.Scan.Errors
import FatFsParticle.Scan.Preorder
import FatFsParticle.Times.Tearing
import FatFsParticle.Times.Entry
import FatFsParticle.Interact.Ends
import FatFsParticle.Interact.Trace
import FatFsParticle.Links.Chain
import FatFsParticle.Fat.Window
import FatFsParticle.Fat.Table
import FatFsParticle.Fat.Chains
import FatFsParticle.Fat.Creating
import FatFsParticle.Fat.Changes
import FatFsParticle.Fat.Objects
import FatFsParticle.Fat.Ownership
import FatFsParticle.Fat.Runs
import FatFsParticle.Cells.Census
import FatFsParticle.Dirs.Entries
import FatFsParticle.Dirs.Listing
import FatFsParticle.Format.Making
import FatFsParticle.Format.Mounting
import FatFsParticle.Globs.Matching
import FatFsParticle.Locks.Counters
import FatFsParticle.Locks.Exclusion
import FatFsParticle.Paths.Finding
import FatFsParticle.Paths.Following
import FatFsParticle.Paths.Changing
import FatFsParticle.Dirs.Maps
import FatFsParticle.Paths.Segments
import FatFsParticle.Paths.Patterns
import FatFsParticle.Words.Masks
import FatFsParticle.Format.Plan
import FatFsParticle.Sdspi.Protection
