import RefereeBox.Editing.Branches
import RefereeBox.Lib.CheckedSort
import RefereeBox.Model.Nullable
import RefereeBox.Editing.Conservation
import RefereeBox.Editing.Independence
import RefereeBox.Editing.Outcomes
import RefereeBox.Lib.Transition
import RefereeBox.Text.BmtText
import RefereeBox.Text.Rejection
import RefereeBox.Text.Reload
import RefereeBox.Model.MainController
import RefereeBox.Server.Delivery
import RefereeBox.Server.Alternation
import RefereeBox.Text.Restore
import RefereeBox.Lib.Grouping
import RefereeBox.Lib.Xml
import RefereeBox.Model.XmlEncoder
import RefereeBox.Text.XmlText
import RefereeBox.Text.XmlBtt
import RefereeBox.Lib.Grammar
import RefereeBox.Text.MessageGrammar
import RefereeBox.Text.Termination
import RefereeBox.Model.TaskStates
import RefereeBox.Model.Session
import RefereeBox.Session.Actions
import RefereeBox.Session.SharedPlaces
import RefereeBox.Session.Timing
import RefereeBox.Session.StartButton
import RefereeBox.Session.TimerButton
import RefereeBox.Session.Marks
import RefereeBox.Model.Tables
import RefereeBox.Session.TableRows
import RefereeBox.Model.TaskTimer
import RefereeBox.Model.Application
import RefereeBox.Session.Flags
import RefereeBox.Model.ServerThread
import RefereeBox.Server.Threads
import RefereeBox.Server.Connections
import RefereeBox.Timer.Phases
import RefereeBox.Timer.Finality
import RefereeBox.Session.UnsavedChanges
import RefereeBox.Lib.LinkedMap
import RefereeBox.Java.Scanner
import RefereeBox.Java.File
import RefereeBox.Model.Configuration
import RefereeBox.Model.Files
import RefereeBox.Model.XmlAreas
import RefereeBox.Config.Positions
import RefereeBox.Config.Verdict
import RefereeBox.Config.Reload
import RefereeBox.Config.Growth
import RefereeBox.Text.Files
import RefereeBox.Lib.StableSort
import RefereeBox.Editing.Sorted
import RefereeBox.Editing.Filled
import RefereeBox.Text.XmlAreas
import RefereeBox.Model.ConfiguredSession
import RefereeBox.Session.ValidTasks
import RefereeBox.Java.Reader
import RefereeBox.Text.SavedFile
import RefereeBox.Text.Cleared
import RefereeBox.Session.SentSpec
import RefereeBox.Model.Wire
import RefereeBox.Model.Engine
import RefereeBox.Zmq.Wire
import RefereeBox.Zmq.Connection
import RefereeBox.Zmq.Reception
import RefereeBox.Lib.RequestReply
import RefereeBox.Model.Rep
import RefereeBox.Zmq.Replies
import RefereeBox.Lib.Handoff
import RefereeBox.Model.YPipe
import RefereeBox.Zmq.YPipe
import RefereeBox.Model.Mailbox
import RefereeBox.Zmq.Mailbox
import RefereeBox.Model.Pipe
import RefereeBox.Zmq.Pipe
import RefereeBox.Lib.Disk
import RefereeBox.Model.LogFiles
import RefereeBox.Session.LogFiles
import RefereeBox.Zmq.PipeTermination
