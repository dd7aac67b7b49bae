import Rszigbee.Runs
import Rszigbee.Tables
import Rszigbee.Correlator
import Rszigbee.Attribution
import Rszigbee.Answering
import Rszigbee.System
import Rszigbee.Counter
import Rszigbee.Startup
import Rszigbee.Changes
import Rszigbee.Moves
import Rszigbee.Stream
import Rszigbee.Addresses
import Rszigbee.Records
import Rszigbee.Liveness
import Rszigbee.Interview
import Rszigbee.Interviews
import Rszigbee.Values
import Rszigbee.Decode
import Rszigbee.Encode
import Rszigbee.Inbound
import Rszigbee.Definition
import Rszigbee.Sources
import Rszigbee.Configure
import Rszigbee.Reporting
import Rszigbee.Commands
import Rszigbee.Agreement
import Rszigbee.Behaviour
import Rszigbee.Utf8
import Rszigbee.Tuya
import Rszigbee.Fidelity
import Rszigbee.Datapoints
import Rszigbee.Requests
import Rszigbee.Files
import Rszigbee.Names
import Rszigbee.File
import Rszigbee.Keeping
import Rszigbee.Crash
import Rszigbee.Backups
import Rszigbee.Index
import Rszigbee.Subscriptions
import Rszigbee.Published
import Rszigbee.Sleepiness
import Rszigbee.Learned
import Rszigbee.Bindings
import Rszigbee.Handed
import Rszigbee.Registrations
import Rszigbee.Silence
import Rszigbee.History
import Rszigbee.Formation
import Rszigbee.Joining
import Rszigbee.Echo
import Rszigbee.Lengths
import Rszigbee.Integers
import Rszigbee.Parameters
import Rszigbee.Manufacturer
import Rszigbee.Wrapping
import Rszigbee.Plans
import Rszigbee.Hosting
import Rszigbee.Quantities
import Rszigbee.Forcing
import Rszigbee.Spellings
import Rszigbee.Wishes
import Rszigbee.Layouts
import Rszigbee.Descriptors
import Rszigbee.Widths
import Rszigbee.Written
import Rszigbee.Schedule
import Rszigbee.Delegates
import Rszigbee.Weekdays
import Rszigbee.Grammar
import Rszigbee.Timetables
import Rszigbee.Flags
import Rszigbee.Contents
import Rszigbee.Reachable
import Rszigbee.Overlays
import Rszigbee.Deltas
import Rszigbee.Transcripts
import Rszigbee.Described
import Rszigbee.Foremost
import Rszigbee.Respelled
import Rszigbee.Handover
import Rszigbee.Brokering
import Rszigbee.Settling
import Rszigbee.Conduct
import Rszigbee.Sessions
import Rszigbee.Fields
